/-
Why a document could not be read.

A text that does not follow the rules of its format is malformed. A text
that does may still hold something that is no value, such as a day that
the calendar does not have; this is told apart, because whoever reads the
document is told of it directly.
-/
import Marginalia.Text.Integer
import Marginalia.Text.Quoted
import Marginalia.Value.Basic
import Marginalia.Value.Moment

namespace Marginalia

/-- Why a document could not be read. -/
inductive ReadError where
  | malformed
  /-- A whole number of too many digits. -/
  | tooManyDigits (digits : Nat)
  /-- A text that is no whole number in a base. -/
  | badInteger (base : Nat) (text : List Char)
  /-- A text that is no floating-point number. -/
  | badFloat (text : List Char)
  | badMoment (error : MomentError)
  /-- An escape beyond the last character. -/
  | noCharacter
  /-- An escape far beyond the last character. -/
  | codeTooLarge
  /-- A number without any character. -/
  | emptyNumber
  /-- A word that is no truth value, though it is said to be one. -/
  | noTruthValue
  /-- A text that is no moment, though it is said to be one. -/
  | noMoment
  /-- Collections are nested too deeply, or in themselves. -/
  | tooDeep
  deriving DecidableEq, Repr

namespace ReadError

/-- How much of a text is shown that is no whole number. -/
def shownLimit : Nat := 200

/-- What is said of a document that could not be read. -/
def message : ReadError → String
  | malformed => "The document is not well formed"
  | tooManyDigits digits => Text.tooManyDigitsMessage (some digits)
  | badInteger base text =>
    "invalid literal for int() with base " ++ toString base ++ ": "
      ++ String.ofList
        ((Text.quoted (String.ofList text)).toList.take shownLimit)
  | badFloat text =>
    "could not convert string to float: " ++ Text.quoted (String.ofList text)
  | badMoment error => error.message
  | noCharacter => "chr() arg not in range(0x110000)"
  | codeTooLarge => "A code point is too large"
  | emptyNumber => "A number has no digits"
  | noTruthValue => "A word is no truth value"
  | noMoment => "A text is no moment"
  | tooDeep => "Collections are nested too deeply"

end ReadError

/-- What makes values of the texts of documents. -/
abbrev DocumentReader : Type := List Char → Except ReadError Value

end Marginalia
