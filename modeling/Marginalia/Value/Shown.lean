/-
Values shown in messages.

`shown` is how a message shows a value it complains about: texts between
quotes, lists in brackets, mappings in braces. `plain` is the value as
bare text, which differs only for texts, shown without quotes, and for
dates and moments, told in digits.
-/
import Marginalia.Decimal.Shortest
import Marginalia.Text.Quoted
import Marginalia.Value.Basic

namespace Marginalia.Value

/-- The words for the floating-point values that are no finite number. -/
def specials : Decimal.Specials := ⟨"nan", "inf", "-inf"⟩

/-- A floating-point number with the fewest digits that read back. -/
def floatText (x : Float) : String :=
  Decimal.textOf Decimal.plainLayout specials x

/-- A byte inside quotes. -/
def byteText (quote : Char) (n : Nat) : List Char :=
  let c := Char.ofNat n
  if c == quote || c == '\\' then ['\\', c]
  else if c == '\t' then ['\\', 't']
  else if c == '\n' then ['\\', 'n']
  else if c == '\r' then ['\\', 'r']
  else if 0x20 ≤ n && n < 0x7f then [c]
  else '\\' :: 'x' :: Text.hexDigits 2 n

/-- Bytes between quotes. -/
def bytesText (data : List Nat) : String :=
  let quote := Text.quoteFor (data.map Char.ofNat)
  String.ofList ('b' :: quote :: data.flatMap (byteText quote) ++ [quote])

mutual

/-- A value as messages show it. -/
def shown : Value → String
  | null => "None"
  | bool b => if b then "True" else "False"
  | int n => toString n
  | float x => floatText x
  | str s => Text.quoted s
  | bytes data => bytesText data
  | date d => d.shown
  | moment m => m.shown
  | list items => "[" ++ ", ".intercalate (shownItems items) ++ "]"
  | map entries => "\x7b" ++ ", ".intercalate (shownEntries entries) ++ "\x7d"
  | set [] => "set()"
  | set items => "\x7b" ++ ", ".intercalate (shownItems items) ++ "\x7d"
  | pair a b => "(" ++ shown a ++ ", " ++ shown b ++ ")"

/-- The items of a list as messages show them. -/
def shownItems : List Value → List String
  | [] => []
  | v :: vs => shown v :: shownItems vs

/-- The entries of a mapping as messages show them. -/
def shownEntries : List (Value × Value) → List String
  | [] => []
  | (k, v) :: entries => (shown k ++ ": " ++ shown v) :: shownEntries entries

end

/-- A value as bare text. -/
def plain : Value → String
  | str s => s
  | date d => d.text
  | moment m => m.text
  | v => v.shown

end Marginalia.Value
