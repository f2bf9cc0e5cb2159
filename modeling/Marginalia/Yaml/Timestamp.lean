/-
Dates and moments of YAML.

A date is a year, a month and a day in digits. A moment has a time of day
after the letter T or blanks, perhaps with a fraction of a second and a
zone.
-/
import Marginalia.Value.Basic
import Marginalia.Value.Error

namespace Marginalia.Yaml

/-- The numbers of a time of day as they were written. -/
structure TimeParts where
  hour : Nat
  minute : Nat
  second : Nat
  /-- The digits of the fraction of a second. -/
  fraction : List Char
  /-- How many minutes the zone is ahead. -/
  zone : Option Int
  deriving DecidableEq, Repr

/-- The numbers of a date or moment as they were written. -/
structure DateParts where
  year : Nat
  month : Nat
  day : Nat
  time : Option TimeParts
  deriving DecidableEq, Repr

/-- A number of between `least` and `most` digits, and the text after it. -/
def takeNumber? (least most : Nat) (cs : List Char) :
    Option (Nat × List Char) :=
  let digits := (cs.take most).takeWhile Char.isDigit
  if least ≤ digits.length then
    some (Text.digitsValue digits, cs.drop digits.length) else none

/-- The text after a character. -/
def after? (c : Char) : List Char → Option (List Char)
  | d :: cs => if c == d then some cs else none
  | [] => none

/-- White space inside a moment. -/
def isMomentBlank (c : Char) : Bool := c == ' ' || c == '\t'

/-- The zone that a text is, if it is one or nothing. -/
def zone? (cs : List Char) : Option (Option Int) :=
  match cs.dropWhile isMomentBlank with
  | [] => if cs.isEmpty then some none else none
  | ['Z'] => some (some 0)
  | sign :: rest =>
    if sign != '-' && sign != '+' then none
    else do
      let (hours, rest) ← takeNumber? 1 2 rest
      let (minutes, rest) ←
        match rest with
        | ':' :: more => takeNumber? 2 2 more
        | more => some (0, more)
      if !rest.isEmpty then none
      let ahead : Int := 60 * hours + minutes
      return some (if sign == '-' then -ahead else ahead)

/-- The time of day that a text is. -/
def timeParts? (cs : List Char) : Option TimeParts := do
  let (hour, rest) ← takeNumber? 1 2 cs
  let (minute, rest) ← takeNumber? 2 2 (← after? ':' rest)
  let (second, rest) ← takeNumber? 2 2 (← after? ':' rest)
  let (fraction, rest) :=
    match rest with
    | '.' :: more => (more.takeWhile Char.isDigit, more.dropWhile Char.isDigit)
    | more => ([], more)
  return { hour, minute, second, fraction, zone := ← zone? rest }

/-- The date or moment that a text is. -/
def dateParts? (cs : List Char) : Option DateParts := do
  let (year, rest) ← takeNumber? 4 4 cs
  let (month, rest) ← takeNumber? 1 2 (← after? '-' rest)
  let (day, rest) ← takeNumber? 1 2 (← after? '-' rest)
  match rest with
  | [] => return ⟨year, month, day, none⟩
  | c :: more =>
    let time := if c == 'T' || c == 't' then more
      else rest.dropWhile isMomentBlank
    if c != 'T' && c != 't' && !isMomentBlank c then none
    return ⟨year, month, day, some (← timeParts? time)⟩

/-- The length of a date whose month and day have two digits. -/
def fullDateLength : Nat := 10

/-- Whether a plain scalar is a date or a moment. A date alone is written with
all its digits. -/
def isDate (cs : List Char) : Bool :=
  (dateParts? cs).any fun parts => parts.time.isSome
    || cs.length == fullDateLength

/-- The millionths of a second that the digits of a fraction write. -/
def microsOf (fraction : List Char) : Nat :=
  Text.digitsValue ((fraction ++ List.replicate 6 '0').take 6)

/-- The date or moment that a scalar stands for. -/
def momentOf (text : List Char) : Except ReadError Value :=
  match dateParts? text with
  | none => throw .noMoment
  | some parts =>
    match parts.time with
    | none =>
      ((Date.make parts.year parts.month parts.day).map .date).mapError
        .badMoment
    | some time =>
      ((Moment.make parts.year parts.month parts.day time.hour time.minute
        time.second
        (microsOf time.fraction) time.zone).map .moment).mapError .badMoment

end Marginalia.Yaml
