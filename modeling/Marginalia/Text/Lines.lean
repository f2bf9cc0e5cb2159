/-
Lines of a text.

Offsets count characters from zero, lines count from one, and only the
line feed ends a line. `Lines` remembers where the lines of a text start,
which answers the two questions the rest of the library asks of it: on
which line an offset lies, and whether a line break stands between two
offsets.

The file also holds the test for an empty line between two places of the
text, which decides whether a comment still touches the code below it.
-/
import Marginalia.Text.Blank

namespace Marginalia.Text

/-- The offsets at which the lines of a text start. -/
structure Lines where
  starts : List Nat
  deriving DecidableEq, Repr

/-- The offsets just past each line feed, the text starting at `offset`. -/
def startsAfter (offset : Nat) : List Char → List Nat
  | [] => []
  | c :: cs =>
    if c == '\n' then (offset + 1) :: startsAfter (offset + 1) cs
    else startsAfter (offset + 1) cs

/-- The lines of a text. -/
def Lines.ofText (text : List Char) : Lines := ⟨0 :: startsAfter 0 text⟩

/-- The line an offset lies on, counted from one. -/
def Lines.lineOf (lines : Lines) (offset : Nat) : Nat :=
  lines.starts.countP (· ≤ offset)

/-- The line of a signed offset: in front of the text there is none. -/
def Lines.lineOfSigned (lines : Lines) : Int → Nat
  | .ofNat offset => lines.lineOf offset
  | .negSucc _ => 0

/-- Whether a line feed stands at or after `start` and before `stop`. -/
def Lines.breakBetween (lines : Lines) (start stop : Nat) : Bool :=
  lines.lineOf start < lines.lineOf stop

-- ================================================= slices and breaks

/-- The characters from `start` up to but not including `stop`. -/
def slice (text : List Char) (start stop : Nat) : List Char :=
  (text.drop start).take (stop - start)

/-- Whether an empty line is complete in the text, given whether the text
so far ends in a line feed and white space. -/
def emptyLineFrom (afterBreak : Bool) : List Char → Bool
  | [] => false
  | c :: cs =>
    if c == '\n' then afterBreak || emptyLineFrom true cs
    else emptyLineFrom (afterBreak && isInlineBlank c) cs

/-- Whether the text between two offsets holds an empty line: two line feeds
with nothing but white space between them. -/
def hasEmptyLine (text : List Char) (start stop : Nat) : Bool :=
  emptyLineFrom false (slice text start stop)

/-- The lines of a text as texts, without their line feeds. -/
def splitLines : List Char → List (List Char)
  | [] => [[]]
  | c :: cs =>
    match splitLines cs with
    | [] => [[c]]
    | line :: rest =>
      if c == '\n' then [] :: line :: rest else (c :: line) :: rest

/-- Lines joined into a text, a line feed between each two. -/
def joinLines (lines : List (List Char)) : List Char :=
  List.intercalate ['\n'] lines

/-- A text with every line end as a line feed. -/
def unifyBreaks : List Char → List Char
  | [] => []
  | '\r' :: '\n' :: cs => '\n' :: unifyBreaks cs
  | '\r' :: cs => '\n' :: unifyBreaks cs
  | c :: cs => c :: unifyBreaks cs

end Marginalia.Text
