/-
The prose of a comment: its text without decoration.

A block comment loses the star that its later lines start with, and both
kinds lose trailing white space, the indentation common to all lines,
blank lines at the ends and every blank line after the first in a row.
What a reader would call the words is left as it is.
-/
import Marginalia.Comment.Basic
import Marginalia.Text.Lines

namespace Marginalia.Prose

-- ======================================================== decoration

/-- A line without the star it starts with, the white space in front of the
star and one white space after it. A star in front of a slash stays. -/
def stripStar (line : List Char) : List Char :=
  match Text.trimLeft line with
  | '*' :: '/' :: _ => line
  | '*' :: c :: rest => if Text.isBlank c then rest else c :: rest
  | ['*'] => []
  | _ => line

-- ======================================================= indentation

/-- Spaces and tabs, which is all that indentation is made of. -/
def isIndent (c : Char) : Bool := c == ' ' || c == '\t'

/-- The longest text that both texts start with. -/
def commonStart : List Char → List Char → List Char
  | a :: as, b :: bs => if a == b then a :: commonStart as bs else []
  | _, _ => []

/-- The indentation common to the lines that hold more than indentation. -/
def margin (lines : List (List Char)) : List Char :=
  match (lines.filter fun line => !line.all isIndent).map
      (·.takeWhile isIndent) with
  | [] => []
  | first :: rest => rest.foldl commonStart first

/-- A line without the margin; a line of nothing but indentation is emptied. -/
def removeMargin (margin line : List Char) : List Char :=
  if line.all isIndent then [] else line.drop margin.length

/-- The lines without trailing white space and without their common margin. -/
def dedent (lines : List (List Char)) : List (List Char) :=
  let trimmed := lines.map Text.trimRight
  trimmed.map (removeMargin (margin trimmed))

-- ======================================================= blank lines

/-- The text with every run of more than two line feeds cut to two; `breaks`
line feeds precede it. -/
def collapseBreaks (breaks : Nat) : List Char → List Char
  | [] => []
  | c :: cs =>
    if c == '\n' then
      if breaks < 2 then c :: collapseBreaks (breaks + 1) cs
      else collapseBreaks breaks cs
    else c :: collapseBreaks 0 cs

/-- The lines in front of decoration removal joined to the final text. -/
def finish (body : List Char) : List Char :=
  Text.trimRight (Text.trimWhile (· == '\n') (collapseBreaks 0 body))

-- ============================================================= prose

/-- The lines of a block comment: the first follows the opener directly and
is dropped when it is blank, the others lose their star. -/
def blockLines (text : List Char) : List (List Char) :=
  match Text.splitLines text with
  | [] => []
  | first :: rest =>
    let title := Text.trim first
    (if title.isEmpty then [] else [title]) ++ dedent (rest.map stripStar)

/-- The prose of a comment's text. -/
def ofText (kind : CommentKind) (text : List Char) : List Char :=
  if text.all Text.isBlank then []
  else
    match kind with
    | .block => finish (Text.joinLines (blockLines text))
    | .line => finish (Text.joinLines (dedent (Text.splitLines text)))

end Marginalia.Prose

namespace Marginalia

/-- The prose of a comment. -/
def Comment.prose (comment : Comment) : String :=
  String.ofList (Prose.ofText comment.kind comment.text.toList)

end Marginalia
