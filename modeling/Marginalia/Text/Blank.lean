/-
White space.

Two notions of it meet in this library. `isBlank` is the wide one: every
space, tab, line or paragraph separator of Unicode, plus the information
separators U+001C to U+001F. It separates code tokens and is what
trimming removes. `isInlineBlank` is the narrow one, the ASCII characters
that a line may hold and still count as empty between a comment and the
code below it.
-/
import Marginalia.Text.Ranges

namespace Marginalia.Text

/-- The ranges of white space. -/
def blankRanges : Ranges :=
  [
    (0x9, 0xD), (0x1C, 0x20), (0x85, 0x85), (0xA0, 0xA0), (0x1680, 0x1680),
    (0x2000, 0x200A), (0x2028, 0x2029), (0x202F, 0x202F), (0x205F, 0x205F),
    (0x3000, 0x3000)]

/-- White space in the wide sense: what separates tokens and is trimmed. -/
def isBlank (c : Char) : Bool := blankRanges.covers c

/-- The characters that leave a line empty between comment and code: space,
tab, carriage return, form feed, vertical tab. -/
def isInlineBlank (c : Char) : Bool :=
  c == ' ' || c == '\t' || c == '\r' || c == '\x0c' || c == '\x0b'

-- ========================================================== trimming

/-- The text without its leading white space. -/
def trimLeft (cs : List Char) : List Char := cs.dropWhile isBlank

/-- The text without the characters at its end that satisfy `p`. -/
def dropRightWhile (p : Char → Bool) : List Char → List Char
  | [] => []
  | c :: cs =>
    match dropRightWhile p cs with
    | [] => if p c then [] else [c]
    | rest => c :: rest

/-- The text without its trailing white space. -/
def trimRight (cs : List Char) : List Char := dropRightWhile isBlank cs

/-- The text without the white space at either end. -/
def trim (cs : List Char) : List Char := trimRight (trimLeft cs)

/-- The text without the characters at either end that satisfy `p`. -/
def trimWhile (p : Char → Bool) (cs : List Char) : List Char :=
  dropRightWhile p (cs.dropWhile p)

end Marginalia.Text
