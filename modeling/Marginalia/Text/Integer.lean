/-
Whole numbers in text.

A whole number may have white space around it, a sign, digits of any
script and single underscores between digits. Numbers of very many digits
are neither read nor written.
-/
import Marginalia.Text.Blank
import Marginalia.Text.Word

namespace Marginalia.Text

/-- The most decimal digits of a number that is read or written. -/
def maxDigits : Nat := 4300

/-- Whether a number has few enough digits to be written. -/
def isWritable (n : Int) : Bool := (Nat.toDigits 10 n.natAbs).length ≤ maxDigits

/-- What is said of a number of too many digits; they are counted where the
number is read. -/
def tooManyDigitsMessage (digits : Option Nat) : String :=
  "Exceeds the limit (" ++ toString maxDigits
    ++ " digits) for integer string conversion"
    ++ (digits.map fun n => ": value has " ++ toString n ++ " digits").getD ""
    ++ "; use sys.set_int_max_str_digits() to increase the limit"

/-- The number that the digits `0` to `9` write. -/
def digitsValue (cs : List Char) : Nat :=
  cs.foldl (fun n c => 10 * n + (c.toNat - '0'.toNat)) 0

/-- The value of a hexadecimal digit. -/
def hexValue? (c : Char) : Option Nat :=
  if '0' ≤ c && c ≤ '9' then some (c.toNat - '0'.toNat)
  else if 'a' ≤ c && c ≤ 'f' then some (c.toNat - 'a'.toNat + 10)
  else if 'A' ≤ c && c ≤ 'F' then some (c.toNat - 'A'.toNat + 10)
  else none

/-- The number that digits write in a base of at most sixteen. -/
def digitsIn (base : Nat) (cs : List Char) : Nat :=
  cs.foldl (fun n c => base * n + (hexValue? c).getD 0) 0

/-- The digits of a text of digits of any script with single underscores
between them. `afterDigit` says that a digit came last. -/
def integerDigits? (afterDigit : Bool) : List Char → Option (List Nat)
  | [] => if afterDigit then some [] else none
  | c :: cs =>
    match digitValue? c with
    | some d => (integerDigits? true cs).map (d :: ·)
    | none => if c == '_' && afterDigit then integerDigits? false cs else none

/-- The number that the digits of a text write, if they are not too many. -/
def natural? (cs : List Char) : Option Nat :=
  (integerDigits? false cs).bind fun digits =>
    if maxDigits < digits.length then none
    else some (digits.foldl (fun n d => 10 * n + d) 0)

/-- The white space that may stand around a whole number: any but the
separators of the control characters. -/
def aroundInteger (c : Char) : Bool := isBlank c && !('\x1c' ≤ c && c ≤ '\x1f')

/-- The whole number that a text writes. -/
def integer? (cs : List Char) : Option Int :=
  match trimWhile aroundInteger cs with
  | '-' :: digits => (natural? digits).map fun n => -(n : Int)
  | '+' :: digits => (natural? digits).map Int.ofNat
  | digits => (natural? digits).map Int.ofNat

end Marginalia.Text
