/-
Writing documents in YAML.

Collections are written by indentation, two columns a level; a sequence
below a key stands at the key's own column, and what is empty is written
as a pair of brackets. A text is written plain where it would be read back
as the same text, else between single quotes, and with escapes between
double quotes where it holds anything but printable ASCII and line ends.
Long texts are broken at spaces. Bytes are written in base 64 on lines of
their own, and what would be read as something else gets its tag.
-/
import Marginalia.Text.Base64
import Marginalia.Value.Shown
import Marginalia.Yaml.Scalar
import Marginalia.Yaml.Tag

namespace Marginalia.Yaml

/-- The column after which a text is broken at the next space. -/
def width : Nat := 80

/-- A run of spaces. -/
def spaces (n : Nat) : List Char := List.replicate n ' '

-- ============================================================ styles

/-- How a scalar is written. -/
inductive Style where
  | plain
  | single
  | double
  deriving DecidableEq, Repr

/-- Whether a character ends a line in a text that is to be written. -/
def isTextBreak (c : Char) : Bool :=
  c == '\n' || c == '\x85' || c == '\u2028' || c == '\u2029'

/-- Whether a character needs no escape: printable ASCII and the line feed. -/
def isOrdinary (c : Char) : Bool := c == '\n' || (' ' ≤ c && c ≤ '~')

/-- Whether a run of characters `a`, `b` comes somewhere. -/
def hasPair (a b : Char → Bool) : List Char → Bool
  | c :: d :: cs => (a c && b d) || hasPair a b (d :: cs)
  | _ => false

/-- Whether the start of a text would be read as a mark of the language. -/
def startsLikeMark : List Char → Bool
  | [] => false
  | c :: cs =>
    ['-', '-', '-'].isPrefixOf (c :: cs) || ['.', '.', '.'].isPrefixOf (c :: cs)
      || ['#', ',', '[', ']', '\x7b', '\x7d', '&', '*', '!', '|', '>', '\x27',
        '"', '%', '@',
          '\x60'].contains c
      || ((c == '?' || c == ':' || c == '-') && startsWithGap cs)

/-- Whether a text holds, after its start, what would end a plain scalar. -/
def holdsMark (cs : List Char) : Bool :=
  hasPair (· == ':') isGap cs || hasPair isGap (· == '#') cs
    || cs.getLast? == some ':'

/-- Whether a text can be written plain. -/
def allowsPlain (cs : List Char) : Bool :=
  cs.all (fun c => isOrdinary c && c != '\n')
    && cs.head? != some ' ' && cs.getLast? != some ' '
    && !startsLikeMark cs && !holdsMark cs

/-- Whether a text can be written between single quotes. -/
def allowsSingle (cs : List Char) : Bool :=
  cs.all isOrdinary && !hasPair isTextBreak (· == ' ') cs
    && !hasPair (· == ' ') isTextBreak cs

/-- The style of a text; `key` says that it is a key on its line. -/
def styleOf (key : Bool) (cs : List Char) : Style :=
  if Tag.ofPlain cs == .str && allowsPlain cs then .plain
  else if allowsSingle cs && !(key && cs.any isTextBreak) then .single
  else .double

-- ====================================================== broken lines

/-- A text cut into runs of spaces, of line ends and of other characters. -/
def runs (cs : List Char) : List (List Char) :=
  let kind (c : Char) : Nat :=
    if c == ' ' then 0 else if isTextBreak c then 1 else 2
  cs.splitBy fun a b => kind a == kind b

/-- What has been written of a scalar: the characters and the column. -/
structure Written where
  chars : List Char
  column : Nat

/-- More characters on the same line. -/
def Written.write (w : Written) (cs : List Char) : Written :=
  ⟨w.chars ++ cs, w.column + cs.length⟩

/-- A new line, indented. -/
def Written.newLine (w : Written) (indent : Nat) : Written :=
  ⟨w.chars ++ '\n' :: spaces indent, indent⟩

/-- One run of a plain or single-quoted text. A single space past the width is
a line break if `inner` says that text stands on both its sides; a line
end is written twice, since one alone would be read as a space. -/
def Written.run (w : Written) (split inner : Bool) (indent : Nat)
    (cs : List Char) : Written :=
  match cs with
  | [' '] =>
    if split && inner && width < w.column then w.newLine indent else w.write cs
  | c :: _ =>
    if isTextBreak c then
      ⟨w.chars ++ '\n' :: cs ++ spaces indent, indent⟩
    else w.write (cs.flatMap fun c => if c == '\x27' then
      ['\x27', '\x27'] else [c])
  | [] => w

/-- The runs of a text between single quotes. -/
def singleRuns (split : Bool) (indent : Nat) :
    Bool → Written → List (List Char) → Written
  | _, w, [] => w
  | first, w, run :: more =>
    singleRuns split indent false
      (w.run split (!first && !more.isEmpty) indent run) more

/-- A text between single quotes. -/
def writeSingle (split : Bool) (indent column : Nat) (cs : List Char) :
    List Char :=
  let w := singleRuns split indent true ⟨['\x27'], column + 1⟩ (runs cs)
  w.chars ++ ['\x27']

/-- A plain text. -/
def writePlain (split : Bool) (indent column : Nat) (cs : List Char) :
    List Char :=
  ((runs cs).foldl
    (fun w run =>
      if run == [' '] && split && width < w.column then w.newLine indent
      else w.write run)
    (⟨[], column⟩ : Written)).chars

-- ===================================================== double quotes

/-- The letter that stands for a character after a backslash. -/
def escapeLetter? : Char → Option Char
  | '\x00' => some '0'
  | '\x07' => some 'a'
  | '\x08' => some 'b'
  | '\t' => some 't'
  | '\n' => some 'n'
  | '\x0b' => some 'v'
  | '\x0c' => some 'f'
  | '\r' => some 'r'
  | '\x1b' => some 'e'
  | '"' => some '"'
  | '\\' => some '\\'
  | '\x85' => some 'N'
  | '\xa0' => some '_'
  | '\u2028' => some 'L'
  | '\u2029' => some 'P'
  | _ => none

/-- A number in upper-case hexadecimal digits of the given width. -/
def upperHex (digits n : Nat) : List Char :=
  let hex := (Nat.toDigits 16 n).map Char.toUpper
  List.replicate (digits - hex.length) '0' ++ hex

/-- A character as an escape. -/
def escapeChar (c : Char) : List Char :=
  match escapeLetter? c with
  | some letter => ['\\', letter]
  | none =>
    if c.toNat ≤ 0xff then '\\' :: 'x' :: upperHex 2 c.toNat
    else if c.toNat ≤ 0xffff then '\\' :: 'u' :: upperHex 4 c.toNat
    else '\\' :: 'U' :: upperHex 8 c.toNat

/-- Whether a character is written as an escape between double quotes. -/
def needsEscape (c : Char) : Bool :=
  c == '"' || c == '\\' || !(' ' ≤ c && c ≤ '~')

/-- The rest of a text between double quotes. `pending` are characters that
were passed and not yet written. Past the width the line is broken at a
space or next to an escape, with a backslash at its end; a backslash also
goes before a space that the next line starts with. -/
def doubleFrom (split : Bool) (indent : Nat) (first : Bool) (w : Written)
    (pending : List Char) : List Char → Written
  | [] => w.write pending
  | c :: cs =>
    let escape := needsEscape c
    let flushed := if escape then (w.write pending).write (escapeChar c) else w
    let kept := if escape then [] else pending
    let reach := flushed.column + kept.length
    let breaks :=
      split && !first && !cs.isEmpty && (c == ' ' || escape || kept.isEmpty)
        && (if escape then width + 1 < reach else width < reach)
    if breaks then
      let broken := (flushed.write (kept ++ ['\\'])).newLine indent
      let leading := if escape then cs.head? == some ' ' else c == ' '
      let resumed := if leading then broken.write ['\\'] else broken
      doubleFrom split indent false resumed (if escape then [] else [c]) cs
    else doubleFrom split indent false flushed
      (if escape then [] else kept ++ [c]) cs

/-- A text between double quotes. -/
def writeDouble (split : Bool) (indent column : Nat) (cs : List Char) :
    List Char :=
  (doubleFrom split indent true ⟨['"'], column + 1⟩ [] cs).chars ++ ['"']

/-- A text in its style, from the given column on. -/
def writeText (key : Bool) (indent column : Nat) (cs : List Char) : List Char :=
  match styleOf key cs with
  | .plain => writePlain (!key) indent column cs
  | .single => writeSingle (!key) indent column cs
  | .double => writeDouble (!key) indent column cs

-- ============================================================ values

/-- A floating-point number, always with a point. -/
def floatText (x : Float) : String :=
  if x.isNaN then ".nan"
  else if x.isInf then (if x < 0 then "-.inf" else ".inf")
  else
    let text := (Value.floatText x).toList
    if text.contains '.' then String.ofList text
    else String.ofList
      (text.flatMap fun c => if c == 'e' then ['.', '0', 'e'] else [c])

/-- The longest line of bytes. -/
def bytesWidth : Nat := 76

/-- A text cut into lines of the given length. -/
def chunksOf (size : Nat) : Nat → List Char → List (List Char)
  | 0, _ => []
  | fuel + 1, cs =>
    if cs.isEmpty then [] else cs.take size :: chunksOf size fuel (cs.drop size)

/-- Bytes on lines of their own. -/
def writeBytes (indent : Nat) (data : List Nat) : List Char :=
  let lines := chunksOf bytesWidth (data.length + 1) (Text.toBase64 data)
  if lines.isEmpty then "!!binary \"\"".toList
  else "!!binary |".toList ++ lines.flatMap fun line =>
    '\n' :: spaces indent ++ line

/-- A scalar or an empty collection, from the given column on; none for a
collection with something in it. -/
def writeScalar? (key : Bool) (indent column : Nat) : Value → Option (List Char)
  | .null => some "null".toList
  | .bool b => some (if b then "true" else "false").toList
  | .int n => some (toString n).toList
  | .float x => some (floatText x).toList
  | .str s => some (writeText key indent column s.toList)
  | .bytes data => some (writeBytes indent data)
  | .date d => some d.text.toList
  | .moment m => some m.text.toList
  | .list [] => some "[]".toList
  | .map [] => some "\x7b\x7d".toList
  | .set [] => some "!!set \x7b\x7d".toList
  | _ => none

/-- The length that the kind of a key counts for. -/
def kindLength : Value → Nat
  | .null => 6
  | .bool _ => 6
  | .float _ => 7
  | .date _ => 11
  | .moment _ => 11
  | _ => 5

/-- The longest key that may stand on the line of its value. -/
def longestSimpleKey : Nat := 127

/-- Whether a key may stand on the line of its value: it is on one line, not
empty and not long. -/
def isSimpleKey (key : Value) : Bool :=
  match key with
  | .str s =>
    !s.isEmpty && !s.toList.any isTextBreak
      && s.length + kindLength key ≤ longestSimpleKey
  | .bytes data => data.isEmpty
  | .list items => items.isEmpty
  | .map entries => entries.isEmpty
  | _ => true

/-- The tag that a collection is written with, if it needs one. -/
def collectionTag : Value → List Char
  | .set _ => "!!set".toList
  | .pair .. => "!!python/tuple".toList
  | _ => []

/-- How deeply collections may be nested that are written. -/
def maxWrittenDepth : Nat := 327

/-- An item of a sequence, whose text as a block is given; the first stands
where writing has got to. -/
def itemText (indent : Nat) (first : Bool) (item : Value) (block : List Char) :
    List Char :=
  let tag := collectionTag item
  let text :=
    match writeScalar? false (indent + 2) (indent + 2) item with
    | some scalar => scalar ++ ['\n']
    | none =>
      (if tag.isEmpty then [] else tag ++ '\n' :: spaces (indent + 2)) ++ block
  (if first then [] else spaces indent) ++ '-' :: ' ' :: text

/-- The items of a set, as keys without values. -/
def writeKeys (indent : Nat) (first : Bool) : List Value → List Char
  | [] => []
  | key :: keys =>
    (if first then [] else spaces indent)
      ++ (if isSimpleKey key then
          (writeScalar? true (indent + 2) indent key).getD []
            ++ ": null\n".toList
        else
          '?' :: ' '
            :: (writeScalar? false (indent + 2) (indent + 2) key).getD []
            ++ '\n' :: spaces indent ++ ": null\n".toList)
      ++ writeKeys indent false keys

mutual

/-- A value that starts at the column `indent`, with its first line not yet
indented; every line ends with a line feed. -/
def writeBlock (indent : Nat) : Value → List Char
  | .list (item :: items) => writeItems indent true (item :: items)
  | .map (entry :: entries) => writeEntries indent true (entry :: entries)
  | .set (item :: items) => writeKeys indent true (item :: items)
  | .pair a b =>
    itemText indent true a (writeBlock (indent + 2) a)
      ++ itemText indent false b (writeBlock (indent + 2) b)
  | value => (writeScalar? false (indent + 2) indent value).getD [] ++ ['\n']

/-- The items of a sequence; the first stands where writing has got to. -/
def writeItems (indent : Nat) (first : Bool) : List Value → List Char
  | [] => []
  | item :: items =>
    itemText indent first item (writeBlock (indent + 2) item)
      ++ writeItems indent false items

/-- The entries of a mapping; the first stands where writing has got to. -/
def writeEntries (indent : Nat) (first : Bool) :
    List (Value × Value) → List Char
  | [] => []
  | (key, value) :: entries =>
    let start := if first then [] else spaces indent
    let more := writeEntries indent false entries
    if isSimpleKey key then
      let name := (writeScalar? true (indent + 2) indent key).getD []
      let text :=
        match writeScalar? false (indent + 2) (indent + name.length + 2) value,
            value with
        | some scalar, _ => ' ' :: scalar ++ ['\n']
        | none, .list _ => '\n' :: spaces indent ++ writeBlock indent value
        | none, .set _ =>
          ' ' :: collectionTag value ++ '\n' :: spaces (indent + 2)
            ++ writeBlock (indent + 2) value
        | none, _ =>
          '\n' :: spaces (indent + 2) ++ writeBlock (indent + 2) value
      start ++ name ++ ':' :: text ++ more
    else
      let wide (v : Value) : Option (List Char) :=
        (writeScalar? false (indent + 2) (indent + 2) v).map (· ++ ['\n'])
      start ++ '?' :: ' ' :: (wide key).getD (writeBlock (indent + 2) key)
        ++ spaces indent ++ ':' :: ' '
        :: (wide value).getD (writeBlock (indent + 2) value)
        ++ more

end

/-- A mapping or sequence as a document. -/
def write (value : Value) : String := String.ofList (writeBlock 0 value)

end Marginalia.Yaml
