/-
Association records: a doc comment and the declaration it documents.

A comment that documents no declaration keeps its record, because comments
on a file or a section are worth having too.
-/
import Marginalia.Comment.Basic
import Marginalia.Scope.Basic
import Marginalia.Token.Basic

namespace Marginalia

/-- A doc comment, the declaration it documents, and the number of scopes
open at the comment. -/
structure Record where
  comment : Comment
  target : Option Site
  depth : Nat
  deriving DecidableEq, Repr

/-- Whether the comment documents no declaration. -/
def Record.isOrphan (record : Record) : Bool := record.target.isNone

/-- What comes by as a text is read: comments and tokens. -/
inductive Item where
  | comment (comment : Comment)
  | token (token : Token)
  deriving DecidableEq, Repr

/-- The offset of an item's first character. -/
def Item.start : Item → Nat
  | comment c => c.start
  | token t => t.start

/-- The offset just past an item. -/
def Item.stop : Item → Nat
  | comment c => c.stop
  | token t => t.stop

/-- Comments and tokens in one stream: always the one that starts first is
next, a comment before a token. -/
def mergeItems (comments : List Comment) (tokens : List Token) : List Item :=
  List.merge (comments.map .comment) (tokens.map .token) fun a b =>
    a.start ≤ b.start

end Marginalia
