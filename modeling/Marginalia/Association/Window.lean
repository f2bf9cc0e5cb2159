/-
A matcher with a window of its own.

A scan takes its window from checked settings. A matcher that is run without
them may be given any value: a number is compared with the count of header
tokens as it is, and any other value fails at the first comparison.
-/
import Marginalia.Association.Matcher
import Marginalia.Settings.Error

namespace Marginalia

/-- The greatest count of tokens that is not above the value, if the value is
a number. No count for a text of `size` characters is above NaN or a number
greater than `size`. -/
def Value.window? (size : Nat) : Value → Option Nat
  | .float x =>
    if x.isNaN || Float.ofNat size < x then some (size + 1)
    else (Value.float x).floor?.map Int.toNat
  | value => value.integer?.map Int.toNat

/-- The reading with another window. -/
def Reading.within (reading : Reading) (window : Value) (count : Nat) :
    Reading :=
  { reading with window := count, writtenWindow := window.plain }

/-- A whole stream of a text of `size` characters, with the value as window. -/
def Matcher.runWithin (window : Value) (size : Nat) (reading : Reading)
    (items : List Item) : Except SettingsError Matched :=
  match window.window? size with
  | some count => .ok (({} : Matcher).run (reading.within window count) items)
  | none =>
    -- The first token of a window is compared, so the run fails where it
    -- would exceed a window of no tokens.
    let matched := ({} : Matcher).run (reading.within window 0) items
    if matched.notices.any (· matches .windowExceeded ..) then .error .wrongType
    else .ok matched

end Marginalia
