/-
Comments: classified, and with their markers taken off.
-/
import Marginalia.Dialect.Rules

namespace Marginalia

/-- What a comment is to a reader of documentation: a doc comment, an
ordinary one, or one that trails code and documents nothing. -/
inductive CommentStyle where
  | doc
  | plain
  | ignored
  deriving DecidableEq, Repr, Inhabited

/-- The name of a comment style. -/
def CommentStyle.name : CommentStyle → String
  | doc => "doc"
  | plain => "plain"
  | ignored => "ignored"

/-- A classified comment. -/
structure Comment where
  /-- The content without the markers; the lines of merged line comments are
  joined by line feeds. -/
  text : String
  style : CommentStyle
  /-- The offset of the opening marker. -/
  start : Nat
  /-- The offset just past the comment. -/
  stop : Nat
  dialect : Dialect
  kind : CommentKind := .block
  placement : Placement := .outer
  /-- The line of the opening marker. -/
  line : Nat := 1
  deriving DecidableEq, Repr

/-- Whether the comment is a doc comment. -/
def Comment.isDoc (comment : Comment) : Bool := comment.style == .doc

end Marginalia
