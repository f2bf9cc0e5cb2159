/-
Rule tables: what one dialect's comments, literals and declarations look
like.

A table is plain data, and everything the library does to a text is a
function of the text and a table, so two dialects may share rows and a
caller may change single rows. An empty opener opens nothing, which is
why reading a text always moves forward; a table with one is reported as
unusable and not read with.
-/
import Marginalia.Dialect.Basic
import Marginalia.Text.Quoted

namespace Marginalia

-- ======================================================== delimiters

/-- A run of characters that opens or closes something. -/
structure Delimiter where
  chars : List Char
  deriving DecidableEq, Repr, Inhabited

namespace Delimiter

/-- The number of characters of a delimiter. -/
def length (d : Delimiter) : Nat := d.chars.length

/-- Whether a delimiter has no characters. -/
def isEmpty (d : Delimiter) : Bool := d.chars.isEmpty

/-- A delimiter as a text. -/
def text (d : Delimiter) : String := String.ofList d.chars

/-- The delimiter with the given text. -/
def ofString (s : String) : Delimiter := ⟨s.toList⟩

/-- The last character of a delimiter. -/
def last? (d : Delimiter) : Option Char := d.chars.getLast?

/-- Whether the delimiter stands at the start of the text. -/
def startsAt (d : Delimiter) (cs : List Char) : Bool := d.chars.isPrefixOf cs

/-- Whether the delimiter opens something at the start of the text: an empty
one opens nothing. -/
def opensAt (d : Delimiter) (cs : List Char) : Bool :=
  !d.isEmpty && d.startsAt cs

/-- Whether the delimiter stands at the end of the text. -/
def endsAt (d : Delimiter) (cs : List Char) : Bool := d.chars.isSuffixOf cs

end Delimiter

-- ============================================================= kinds

/-- The two kinds of literals. -/
inductive LiteralKind where
  | string
  | char
  deriving DecidableEq, Repr, Inhabited

/-- The two kinds of comments. -/
inductive CommentKind where
  | line
  | block
  deriving DecidableEq, Repr, Inhabited

/-- What a stretch of a text is. -/
inductive SpanKind where
  | code
  | literal (kind : LiteralKind)
  | comment (kind : CommentKind)
  deriving DecidableEq, Repr, Inhabited

/-- Which item a doc comment describes: an outer comment the declaration
after it, an inner comment the declaration around it. -/
inductive Placement where
  | outer
  | inner
  deriving DecidableEq, Repr, Inhabited

/-- The name of a literal kind. -/
def LiteralKind.name : LiteralKind → String
  | string => "string_literal"
  | char => "char_literal"

/-- The name of a comment kind. -/
def CommentKind.name : CommentKind → String
  | line => "line_comment"
  | block => "block_comment"

/-- All kinds of spans. -/
def SpanKind.all : List SpanKind :=
  [.code, .literal .string, .literal .char, .comment .line, .comment .block]

/-- The name of a span kind. -/
def SpanKind.name : SpanKind → String
  | code => "code"
  | literal kind => kind.name
  | comment kind => kind.name

/-- Both placements. -/
def Placement.all : List Placement := [.outer, .inner]

/-- The name of a placement. -/
def Placement.name : Placement → String
  | outer => "outer"
  | inner => "inner"

-- ============================================================== rows

/-- How one kind of string or character literal is delimited. -/
structure LiteralRule where
  /-- Opens the literal. -/
  opener : Delimiter
  /-- Closes the literal. -/
  closer : Delimiter
  /-- What the stretch becomes. -/
  kind : SpanKind := .literal .string
  /-- A character that takes the next one into the literal with it; raw
  literals have none. A longer or empty escape takes nothing, but content
  that starts with it passes for one character. -/
  escape : Option (List Char) := some ['\\']
  /-- A closer written twice is content. -/
  doubledCloser : Bool := false
  /-- When set, the literal closes within this many characters on its line
  or the opener is code. -/
  maxLength : Option Nat := none
  /-- The opener must not continue a word. -/
  wordPrefixed : Bool := false
  deriving DecidableEq, Repr, Inhabited

/-- A comment opener that makes the comment a doc comment, unless its last
character is repeated. -/
structure DocMarker where
  opener : Delimiter
  kind : SpanKind
  placement : Placement := .outer
  deriving DecidableEq, Repr, Inhabited

/-- The rule table of one dialect. -/
structure Rules where
  dialect : Dialect
  lineComment : Delimiter := ⟨['/', '/']⟩
  blockOpener : Delimiter := ⟨['/', '*']⟩
  blockCloser : Delimiter := ⟨['*', '/']⟩
  /-- Block comments nest. -/
  nestedBlocks : Bool := false
  markers : List DocMarker
  literals : List LiteralRule
  /-- Words that introduce a function. -/
  functionKeywords : List String := []
  /-- Words that introduce a class-like declaration. -/
  classKeywords : List String
  /-- Words skipped in front of a declaration. -/
  modifierKeywords : List String
  /-- Words that look like calls but open plain blocks. -/
  controlKeywords : List String
  /-- A name with a parameter list declares a function without a keyword. -/
  signatureFunctions : Bool := true
  /-- Tokens that make a parameter list a lambda. -/
  lambdaArrows : List String := []
  /-- A capture list in brackets starts a lambda. -/
  bracketLambdas : Bool := false
  /-- Parameters between bars start a closure. -/
  barClosures : Bool := false
  /-- The token that starts a decorator. -/
  decorator : Option String := none
  /-- Tokens that open a bracketed attribute list. -/
  attributeOpeners : List String := []
  /-- Lines that start with a number sign are directives. -/
  preprocessor : Bool := false
  /-- A line break may end a statement. -/
  newlineTerminates : Bool := false
  /-- Doc line comments on consecutive lines are one comment. -/
  mergesLineComments : Bool := true
  deriving DecidableEq, Repr

/-- Whether every opener of a comment or literal has a character, as reading
a text needs. -/
def Rules.isUsable (rules : Rules) : Bool :=
  !rules.lineComment.isEmpty && !rules.blockOpener.isEmpty
    && rules.literals.all (!·.opener.isEmpty)

-- ======================================================= doc markers

/-- The rules with the inner doc markers kept or dropped. -/
def Rules.withInnerComments (rules : Rules) (enabled : Bool) : Rules :=
  if enabled then rules
  else { rules with markers := rules.markers.filter (·.placement == .outer) }

/-- The kind of comment that a marker opens: what starts with the block
opener opens a block comment, what starts with the line opener a line
comment. -/
def Rules.markerKind? (rules : Rules) (marker : List Char) :
    Option CommentKind :=
  if rules.blockOpener.startsAt marker then some .block
  else if rules.lineComment.startsAt marker then some .line
  else none

/-- A doc marker that opens no comment of its dialect. -/
structure MarkerError where
  marker : String
  dialect : Dialect
  deriving DecidableEq, Repr

/-- What is said of a marker that opens no comment. -/
def MarkerError.message (e : MarkerError) : String :=
  "Doc marker " ++ Text.quoted e.marker ++ " does not open a " ++ e.dialect.name
    ++ " comment"

/-- The doc marker with the given text. -/
def Rules.docMarker (rules : Rules) (placement : Placement) (marker : String) :
    Except MarkerError DocMarker :=
  match rules.markerKind? marker.toList with
  | some kind =>
    .ok { opener := .ofString marker, kind := .comment kind, placement }
  | none => .error ⟨marker, rules.dialect⟩

/-- The markers of one placement: those of the table, or those given. -/
def Rules.markersFor (rules : Rules) (placement : Placement) :
    Option (List String) → Except MarkerError (List DocMarker)
  | none => .ok (rules.markers.filter (·.placement == placement))
  | some given => given.mapM (rules.docMarker placement)

/-- The rules with the markers of a placement replaced by the given ones.
Fails on the first marker that opens no comment. -/
def Rules.withMarkers (rules : Rules) (outer inner : Option (List String)) :
    Except MarkerError Rules :=
  if outer.isNone && inner.isNone then .ok rules
  else do
    let outerMarkers ← rules.markersFor .outer outer
    let innerMarkers ← rules.markersFor .inner inner
    return { rules with markers := outerMarkers ++ innerMarkers }

end Marginalia
