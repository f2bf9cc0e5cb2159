/-
The comments of a text.

Every comment span becomes a comment, except that doc line comments of
one placement on consecutive lines become one comment together. A run of
such lines is open while only white space follows it; the next line joins
if exactly one line feed lies between.

A comment is trailing when code or a literal ends on the line where it
starts.
-/
import Marginalia.Comment.Marker
import Marginalia.Span.Basic
import Marginalia.Text.Lines

namespace Marginalia

/-- Doc line comments on consecutive lines, still open for the next line. -/
structure CommentRun where
  start : Nat
  stop : Nat
  line : Nat
  placement : Placement
  /-- The contents of the lines, the last one first. -/
  contents : List (List Char)
  /-- What follows the last line. -/
  gap : List Char

namespace CommentRun

/-- The run of one line comment. -/
def single (span : Span) (marker : DocMarker) (line : Nat) : CommentRun where
  start := span.start
  stop := span.stop
  line := line
  placement := marker.placement
  contents := [span.chars.drop marker.opener.length]
  gap := []

/-- Whether a line comment of the given placement joins the run. -/
def admits (run : CommentRun) (placement : Placement) : Bool :=
  run.placement == placement && run.gap.count '\n' == 1
    && run.gap.all Text.isBlank

/-- The run with one more line. -/
def push (run : CommentRun) (span : Span) (marker : DocMarker) : CommentRun :=
  { run with
    stop := span.stop
    contents := span.chars.drop marker.opener.length :: run.contents
    gap := [] }

/-- The run with white space after it. -/
def skip (run : CommentRun) (blank : List Char) : CommentRun :=
  { run with gap := run.gap ++ blank }

/-- The comment of a finished run. -/
def comment (run : CommentRun) (rules : Rules) : Comment where
  text := String.ofList (Text.joinLines run.contents.reverse)
  style := .doc
  start := run.start
  stop := run.stop
  dialect := rules.dialect
  kind := .line
  placement := run.placement
  line := run.line

end CommentRun

/-- The comment of a single span. -/
def Rules.comment (rules : Rules) (span : Span) (kind : CommentKind)
    (verdict : Verdict) (line : Nat) : Comment :=
  let openerLength :=
    match verdict.marker?, kind with
    | some marker, _ => marker.opener.length
    | none, .line => rules.lineComment.length
    | none, .block => rules.blockOpener.length
  { text := String.ofList (rules.contentOf kind openerLength span.chars)
    style := verdict.style
    start := span.start
    stop := span.stop
    dialect := rules.dialect
    kind
    placement := (verdict.marker?.map (·.placement)).getD .outer
    line }

/-- The comment of the open run, if there is one. -/
def Rules.finishRun (rules : Rules) (run : Option CommentRun) : List Comment :=
  (run.map (·.comment rules)).toList

/-- The comments of the spans that are left, when code was last seen on line
`codeLine` and `run` is open. -/
def Rules.commentsFrom (rules : Rules) (lines : Text.Lines) (codeLine : Nat)
    (run : Option CommentRun) : List Span → List Comment
  | [] => rules.finishRun run
  | span :: spans =>
    match span.kind with
    | .comment kind =>
      let line := lines.lineOf span.start
      let verdict := rules.verdict kind span.chars (line == codeLine)
      match verdict, kind, rules.mergesLineComments with
      | .doc marker, .line, true =>
        if run.any (·.admits marker.placement) then
          rules.commentsFrom lines codeLine (run.map (·.push span marker)) spans
        else
          rules.finishRun run
            ++ rules.commentsFrom lines codeLine
              (some (.single span marker line)) spans
      | _, _, _ =>
        rules.finishRun run
          ++ rules.comment span kind verdict line
          :: rules.commentsFrom lines codeLine none spans
    | _ =>
      let content := Text.trimRight span.chars
      if content.isEmpty then
        rules.commentsFrom lines codeLine (run.map (·.skip span.chars)) spans
      else
        rules.finishRun run
          ++ rules.commentsFrom lines
            (lines.lineOf (span.start + content.length - 1)) none spans

/-- The comments of a text that was cut into the given spans. -/
def Rules.comments (rules : Rules) (lines : Text.Lines) (spans : List Span) :
    List Comment :=
  rules.commentsFrom lines 0 none spans

/-- Whether each of the comments of a text is given its verdict; one behind
code needs none. -/
def Rules.judges (rules : Rules) (text : List Char) (comments : List Comment) :
    Bool :=
  comments.all fun c =>
    c.style == .ignored
      || (rules.verdict c.kind (Text.slice text c.start c.stop) false).isGiven

end Marginalia
