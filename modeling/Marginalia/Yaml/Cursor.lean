/-
A place in a document in YAML.

Block structure goes by columns, and a key has to stand on one line, so a
cursor knows the line and the column of the text that is left.
-/
namespace Marginalia.Yaml

/-- A place in a document. -/
structure Cursor where
  rest : List Char
  /-- How many characters come before. -/
  index : Nat := 0
  line : Nat := 0
  column : Nat := 0
  deriving DecidableEq, Repr, Inhabited

/-- Whether a character ends a line. -/
def isBreak (c : Char) : Bool :=
  c == '\n' || c == '\r' || c == '\x85' || c == '\u2028' || c == '\u2029'

/-- Whether a character parts words: a space, a tab or the end of a line. -/
def isGap (c : Char) : Bool := c == ' ' || c == '\t' || isBreak c

/-- Whether a gap or the end of the document comes first. -/
def startsWithGap (cs : List Char) : Bool := cs.head?.all isGap

namespace Cursor

/-- The place after the next character. A byte order mark takes no column. -/
def next (cursor : Cursor) : Cursor :=
  match cursor.rest with
  | [] => cursor
  | c :: rest =>
    if isBreak c then ⟨rest, cursor.index + 1, cursor.line + 1, 0⟩
    else ⟨rest, cursor.index + 1, cursor.line,
      if c == '\ufeff' then cursor.column else cursor.column + 1⟩

/-- The place `n` characters further. -/
def forward : Nat → Cursor → Cursor
  | 0, cursor => cursor
  | n + 1, cursor => forward n cursor.next

/-- Whether nothing is left. -/
def atEnd (cursor : Cursor) : Bool := cursor.rest.isEmpty

/-- Whether the text that is left starts with a character. -/
def startsWith (cursor : Cursor) (c : Char) : Bool :=
  cursor.rest.head? == some c

/-- Whether a line or the document ends here. -/
def atLineEnd (cursor : Cursor) : Bool := cursor.rest.head?.all isBreak

/-- Whether a space, a line's or the document's end comes next. -/
def atSpace (cursor : Cursor) : Bool :=
  cursor.startsWith ' ' || cursor.atLineEnd

/-- Whether the first line of the text that is left is a run of three marks,
at the start of a line and alone or before a gap. -/
def atMarks (cursor : Cursor) (mark : Char) : Bool :=
  cursor.column == 0 && [mark, mark, mark].isPrefixOf cursor.rest
    && startsWithGap (cursor.rest.drop 3)

/-- Whether a document starts or ends here. -/
def atBoundary (cursor : Cursor) : Bool :=
  cursor.atMarks '-' || cursor.atMarks '.'

/-- The place after the characters that satisfy `p`. -/
def skipWhile (p : Char → Bool) (cursor : Cursor) : Cursor :=
  cursor.forward (cursor.rest.takeWhile p).length

/-- The place after spaces. -/
def skipSpaces (cursor : Cursor) : Cursor := cursor.skipWhile (· == ' ')

/-- The place after spaces and a comment. -/
def skipComment (cursor : Cursor) : Cursor :=
  let stop := cursor.skipSpaces
  if stop.startsWith '#' then stop.skipWhile (!isBreak ·) else stop

end Cursor

end Marginalia.Yaml
