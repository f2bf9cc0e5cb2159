/-
Setting up the log: its level as a number and the format of its lines.
-/
import Marginalia.Settings.Check

namespace Marginalia

/-- How the log is set up. -/
structure LogSetup where
  level : Nat
  format : String
  deriving DecidableEq, Repr

/-- One after the other. -/
def Pattern.sequence (patterns : List Pattern) : Pattern :=
  patterns.foldr .seq .nothing

/-- One of the given characters, in either case. -/
def Pattern.oneOf (chars : List Char) : Pattern :=
  .char (.anyOf (chars.map .single)) .letters

/-- A width or a precision: a star or a number. -/
def sizePattern : Pattern :=
  .alt (.oneOf ['*']) (.repeated (.char .digit .exact) 1 none .most)

/-- A field of a format: a name in parentheses after a percent sign, then
flags, a width, a precision and a letter. -/
def fieldPattern : Pattern :=
  .sequence [
    .oneOf ['%'],
    .oneOf ['('],
    .repeated (.char .word .exact) 1 none .most,
    .oneOf [')'],
    .repeated (.oneOf ['#', '0', '+', ' ', '-']) 0 none .most,
    .repeated sizePattern 0 (some 1) .most,
    .repeated (.seq (.oneOf ['.']) sizePattern) 0 (some 1) .most,
    .oneOf "diouxefgcrsa%".toList]

/-- The format of the log's lines: the message alone if none is set, and else
a text with a field in it. -/
def checkFormat (value : Value) : Except SettingsError String :=
  if !value.isTruthy then .ok "%(message)s"
  else
    match value with
    | .str text =>
      if fieldPattern.matchesIn text.toList then .ok text
      else .error (.badFormat text)
    | _ => .error .wrongType

/-- Sets up the log. -/
def LogSettings.setup (settings : LogSettings) :
    Except SettingsError LogSetup := do
  let place ← settings.check
  let format ← checkFormat settings.format
  return { level := 10 * (place + 1), format }

end Marginalia
