/-
Documents in JSON.

Reading takes standard JSON and the words `NaN`, `Infinity` and
`-Infinity`. A number with a fraction or an exponent is a floating-point
number, any other an integer of any size. A key written again takes the
later value. Writing breaks lines, indents by two spaces and escapes every
character beyond ASCII, as UTF-16 units where it takes two; dates, moments,
bytes, sets and numbers of too many digits cannot be written.
-/
import Marginalia.Value.Error
import Marginalia.Value.Shown

namespace Marginalia.Json

-- =========================================================== reading

/-- The white space of JSON. -/
def isSpace (c : Char) : Bool := c == ' ' || c == '\t' || c == '\n' || c == '\r'

/-- The text after the white space it starts with. -/
def skipSpace (cs : List Char) : List Char := cs.dropWhile isSpace

/-- A number of four hexadecimal digits and the text after it. -/
def readUnit : List Char → Option (Nat × List Char)
  | a :: b :: c :: d :: cs => do
    let w ← Text.hexValue? a
    let x ← Text.hexValue? b
    let y ← Text.hexValue? c
    let z ← Text.hexValue? d
    return (((w * 16 + x) * 16 + y) * 16 + z, cs)
  | _ => none

/-- Whether a unit is the first of two. -/
def isHighUnit (n : Nat) : Bool := 0xD800 ≤ n && n < 0xDC00

/-- Whether a unit is the second of two. -/
def isLowUnit (n : Nat) : Bool := 0xDC00 ≤ n && n < 0xE000

/-- The character that two units make. -/
def paired? (first second : Nat) : Option Char :=
  if isHighUnit first && isLowUnit second then
    some (Char.ofNat (0x10000 + (first - 0xD800) * 0x400 + (second - 0xDC00)))
  else none

/-- The character after a backslash and the letter u: one unit, or two that
belong together. -/
def readCodePoint (cs : List Char) : Option (Char × List Char) := do
  let (first, rest) ← readUnit cs
  if isHighUnit first then
    match rest with
    | '\\' :: 'u' :: more =>
      let (second, rest') ← readUnit more
      return ((paired? first second).map (·, rest')).getD ('\uFFFD', rest)
    | _ => return ('\uFFFD', rest)
  else if isLowUnit first then return ('\uFFFD', rest)
  else return (Char.ofNat first, rest)

/-- The character that a letter after a backslash stands for. -/
def escapedChar? : Char → Option Char
  | '"' => some '"'
  | '\\' => some '\\'
  | '/' => some '/'
  | 'b' => some '\x08'
  | 'f' => some '\x0c'
  | 'n' => some '\n'
  | 'r' => some '\r'
  | 't' => some '\t'
  | _ => none

/-- The next character of a string, if it has one and the string is well
formed: `none` in the pair at the closing quote. -/
def readChar : List Char → Option (Option Char × List Char)
  | [] => none
  | '"' :: cs => some (none, cs)
  | '\\' :: 'u' :: cs => (readCodePoint cs).map fun (c, rest) => (some c, rest)
  | '\\' :: c :: cs => (escapedChar? c).map fun d => (some d, cs)
  | c :: cs => if c.toNat < 0x20 || c == '\\' then none else some (some c, cs)

/-- The characters of a string up to its closing quote, and the text after
it, in at most `fuel` characters. -/
def readChars : Nat → List Char → Option (List Char × List Char)
  | 0, _ => none
  | fuel + 1, cs =>
    match readChar cs with
    | none => none
    | some (none, rest) => some ([], rest)
    | some (some c, rest) =>
      (readChars fuel rest).map fun (more, rest') => (c :: more, rest')

/-- The string after its opening quote. -/
def readString (cs : List Char) : Option (String × List Char) :=
  (readChars (cs.length + 1) cs).map fun (chars, rest) =>
    (String.ofList chars, rest)

/-- The digits a text starts with, at least one, and the text after them. -/
def readDigits (cs : List Char) : Option (List Char × List Char) :=
  match cs.takeWhile Char.isDigit with
  | [] => none
  | digits => some (digits, cs.dropWhile Char.isDigit)

/-- The digits of a whole number, which start with zero only if that is all. -/
def readWhole : List Char → Option (List Char × List Char)
  | '0' :: cs => some (['0'], cs)
  | cs => readDigits cs

/-- The fraction part a text starts with: its digits, none if it has none. -/
def readFraction : List Char → List Char × List Char
  | '.' :: cs => (readDigits cs).getD ([], '.' :: cs)
  | cs => ([], cs)

/-- The exponent a text starts with. -/
def readExponent : List Char → Option Int × List Char
  | c :: cs =>
    if c == 'e' || c == 'E' then
      let (negative, digits) :=
        match cs with
        | '-' :: rest => (true, rest)
        | '+' :: rest => (false, rest)
        | rest => (false, rest)
      match readDigits digits with
      | some (ds, rest) =>
        (some (if negative then -(Text.digitsValue ds : Int)
          else Text.digitsValue ds), rest)
      | none => (none, c :: cs)
    else (none, c :: cs)
  | [] => (none, [])

/-- The double nearest to `± mantissa · 10^exponent`. Past the range of
doubles it is infinite or zero. -/
def floatOf (negative : Bool) (mantissa : Nat) (exponent : Int) : Float :=
  let digits : Int := (Nat.toDigits 10 mantissa).length
  let size : Float :=
    if mantissa == 0 || digits + exponent ≤ -324 then 0.0
    else if 310 ≤ digits + exponent then 1.0 / 0.0
    else Float.ofScientific mantissa (exponent < 0) exponent.natAbs
  if negative then -size else size

/-- The result of a reader that fails on malformed text only. -/
def orMalformed {α : Type} :
    Option (α × List Char) → Except ReadError (α × List Char)
  | some result => .ok result
  | none => .error .malformed

/-- The number a text starts with, after its sign. -/
def readNumber (negative : Bool) (cs : List Char) :
    Except ReadError (Value × List Char) := do
  let (whole, afterWhole) ← orMalformed (readWhole cs)
  let (fraction, afterFraction) := readFraction afterWhole
  let (exponent, rest) := readExponent afterFraction
  if fraction.isEmpty && exponent.isNone then
    if Text.maxDigits < whole.length then throw (.tooManyDigits whole.length)
    let n : Int := Text.digitsValue whole
    return (.int (if negative then -n else n), rest)
  else
    let mantissa := Text.digitsValue (whole ++ fraction)
    let scale := exponent.getD 0 - fraction.length
    return (.float (floatOf negative mantissa scale), rest)

/-- The text after the given word, if it starts with it. -/
def afterWord? (word : String) (cs : List Char) : Option (List Char) :=
  if word.toList.isPrefixOf cs then some (cs.drop word.length) else none

/-- The words that stand for values. -/
def words : List (String × Value) :=
  [("null", .null), ("true", .bool true), ("false", .bool false),
   ("NaN", .float (0.0 / 0.0)), ("Infinity", .float (1.0 / 0.0)),
   ("-Infinity", .float (-1.0 / 0.0))]

/-- The word or number a text starts with. -/
def readScalar (cs : List Char) : Except ReadError (Value × List Char) :=
  match words.findSome? fun (word, value) =>
      (afterWord? word cs).map (value, ·) with
  | some result => .ok result
  | none =>
    match cs with
    | '-' :: rest => readNumber true rest
    | rest => readNumber false rest

/-- How deeply collections may be nested. -/
def maxDepth : Nat := 980

mutual

/-- The value a text starts with and the text after it. Each value costs one
unit of fuel, so the length of the text is always enough; `room` is how
many levels of collections may still be opened. -/
def readValue (fuel room : Nat) (cs : List Char) :
    Except ReadError (Value × List Char) :=
  match fuel with
  | 0 => .error .malformed
  | fuel + 1 =>
    match cs with
    | '"' :: text => do
      let (s, rest) ← orMalformed (readString text)
      return (.str s, rest)
    | '[' :: text => do
      if room == 0 then throw .tooDeep
      match skipSpace text with
      | ']' :: rest => return (.list [], rest)
      | inner => do
        let (items, rest) ← readItems fuel (room - 1) inner
        return (.list items, rest)
    | '\x7b' :: text => do
      if room == 0 then throw .tooDeep
      match skipSpace text with
      | '\x7d' :: rest => return (.map [], rest)
      | inner => do
        let (entries, rest) ← readEntries fuel (room - 1) inner
        return (.ofEntries entries, rest)
    | text => readScalar text

/-- The items of a list up to its bracket. -/
def readItems (fuel room : Nat) (cs : List Char) :
    Except ReadError (List Value × List Char) :=
  match fuel with
  | 0 => .error .malformed
  | fuel + 1 => do
    let (item, after) ← readValue fuel room cs
    match skipSpace after with
    | ',' :: more => do
      let (items, rest) ← readItems fuel room (skipSpace more)
      return (item :: items, rest)
    | ']' :: rest => return ([item], rest)
    | _ => throw .malformed

/-- The entries of an object up to its brace. -/
def readEntries (fuel room : Nat) (cs : List Char) :
    Except ReadError (List (Value × Value) × List Char) :=
  match fuel with
  | 0 => .error .malformed
  | fuel + 1 =>
    match cs with
    | '"' :: text => do
      let (key, afterKey) ← orMalformed (readString text)
      match skipSpace afterKey with
      | ':' :: valueText => do
        let (value, afterValue) ← readValue fuel room (skipSpace valueText)
        match skipSpace afterValue with
        | ',' :: more => do
          let (entries, rest) ← readEntries fuel room (skipSpace more)
          return ((.str key, value) :: entries, rest)
        | '\x7d' :: rest => return ([(.str key, value)], rest)
        | _ => throw .malformed
      | _ => throw .malformed
    | _ => .error .malformed

end

/-- The value of a JSON text. -/
def read (text : List Char) : Except ReadError Value := do
  let (value, rest) ← readValue (2 * text.length + 2) maxDepth (skipSpace text)
  if (skipSpace rest).isEmpty then return value else throw .malformed

-- =========================================================== writing

/-- One UTF-16 unit as an escape. -/
def unitEscape (n : Nat) : List Char := '\\' :: 'u' :: Text.hexDigits 4 n

/-- A character inside quotes. -/
def writeChar (c : Char) : List Char :=
  if c == '"' then ['\\', '"']
  else if c == '\\' then ['\\', '\\']
  else if c == '\n' then ['\\', 'n']
  else if c == '\r' then ['\\', 'r']
  else if c == '\t' then ['\\', 't']
  else if c == '\x08' then ['\\', 'b']
  else if c == '\x0c' then ['\\', 'f']
  else if 0x20 ≤ c.toNat && c.toNat < 0x7F then [c]
  else if c.toNat < 0x10000 then unitEscape c.toNat
  else
    unitEscape (0xD800 + (c.toNat - 0x10000) / 0x400)
      ++ unitEscape (0xDC00 + (c.toNat - 0x10000) % 0x400)

/-- A text between quotes. -/
def writeString (s : String) : List Char :=
  '"' :: s.toList.flatMap writeChar ++ ['"']

/-- The words for the floating-point values that are no finite number. -/
def specials : Decimal.Specials := ⟨"NaN", "Infinity", "-Infinity"⟩

/-- A floating-point number. -/
def writeFloat (x : Float) : List Char :=
  (Decimal.textOf Decimal.plainLayout specials x).toList

/-- Why a value could not be written. -/
inductive WriteError where
  /-- A date, a moment, bytes or a set. -/
  | noForm
  /-- A whole number of too many digits. -/
  | unwritable
  deriving DecidableEq, Repr

/-- A whole number. -/
def writeInt (n : Int) : Except WriteError String :=
  if Text.isWritable n then .ok (toString n) else .error .unwritable

/-- A mapping key, which is always a string. -/
def keyText : Value → Except WriteError String
  | .null => .ok "null"
  | .bool b => .ok (if b then "true" else "false")
  | .int n => writeInt n
  | .float x => .ok (String.ofList (writeFloat x))
  | .str s => .ok s
  | _ => .error .noForm

/-- A line feed and the indentation of the given level. -/
def newline (level : Nat) : List Char := '\n' :: List.replicate (2 * level) ' '

mutual

/-- A value, the line it starts on being indented to `level`. -/
def writeValue (level : Nat) : Value → Except WriteError (List Char)
  | .null => .ok "null".toList
  | .bool b => .ok (if b then "true" else "false").toList
  | .int n => (writeInt n).map String.toList
  | .float x => .ok (writeFloat x)
  | .str s => .ok (writeString s)
  | .list [] => .ok ['[', ']']
  | .list items => do
    return '[' :: (← writeItems (level + 1) items) ++ newline level ++ [']']
  | .map [] => .ok ['\x7b', '\x7d']
  | .map entries => do
    return '\x7b' :: (← writeEntries (level + 1) entries) ++ newline level
      ++ ['\x7d']
  | .pair a b => do
    let first ← writeValue (level + 1) a
    let second ← writeValue (level + 1) b
    return '[' :: newline (level + 1) ++ first ++ ',' :: newline (level + 1)
      ++ second ++ newline level ++ [']']
  | .bytes _ => .error .noForm
  | .date _ => .error .noForm
  | .moment _ => .error .noForm
  | .set _ => .error .noForm

/-- The items of a list, each on a line of its own. -/
def writeItems (level : Nat) : List Value → Except WriteError (List Char)
  | [] => .ok []
  | [v] => do return newline level ++ (← writeValue level v)
  | v :: vs => do
    return newline level ++ (← writeValue level v) ++ ','
      :: (← writeItems level vs)

/-- The entries of an object, each on a line of its own. -/
def writeEntries (level : Nat) :
    List (Value × Value) → Except WriteError (List Char)
  | [] => .ok []
  | [(k, v)] => do
    return newline level ++ writeString (← keyText k) ++ [':', ' ']
      ++ (← writeValue level v)
  | (k, v) :: entries => do
    return newline level ++ writeString (← keyText k) ++ [':', ' ']
      ++ (← writeValue level v) ++ ',' :: (← writeEntries level entries)

end

/-- The JSON text of a value. -/
def write (value : Value) : Except WriteError String :=
  (writeValue 0 value).map String.ofList

end Marginalia.Json
