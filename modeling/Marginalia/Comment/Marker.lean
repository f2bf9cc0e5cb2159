/-
Doc markers: telling a doc comment by its opening characters, and taking
the markers off.

A marker's last character must not be repeated, so that a row of slashes
or stars is an ordinary comment. A block comment too short to hold both
the marker and the closer, such as `/**/`, is ordinary too.
-/
import Marginalia.Comment.Basic

namespace Marginalia

/-- What the opening of a comment says about it. -/
inductive Verdict where
  | doc (marker : DocMarker)
  | plain
  | ignored
  deriving DecidableEq, Repr

/-- The style of a comment with the verdict. -/
def Verdict.style : Verdict → CommentStyle
  | doc _ => .doc
  | plain => .plain
  | ignored => .ignored

/-- The marker of a doc comment. -/
def Verdict.marker? : Verdict → Option DocMarker
  | doc marker => some marker
  | _ => none

/-- Whether the verdict can be given: a marker without characters has no last
one, which the comment must not repeat. -/
def Verdict.isGiven (verdict : Verdict) : Bool :=
  verdict.marker?.all (!·.opener.isEmpty)

/-- Whether the comment, markers included, is opened by the marker. An empty
marker opens any. -/
def Rules.opens (rules : Rules) (marker : DocMarker) (raw : List Char) : Bool :=
  marker.opener.isEmpty
    || (marker.opener.startsAt raw
      && (raw.drop marker.opener.length).head? != marker.opener.last?
      && (marker.kind != .comment .block || !rules.blockCloser.endsAt raw
        || marker.opener.length + rules.blockCloser.length ≤ raw.length))

/-- The verdict on a comment, markers included, by the first marker of its
kind that opens it; `trailing` says that code precedes it on its line. -/
def Rules.verdict (rules : Rules) (kind : CommentKind) (raw : List Char)
    (trailing : Bool) : Verdict :=
  if trailing then .ignored
  else
    match rules.markers.find? fun m => m.kind == .comment kind
        && rules.opens m raw with
    | some marker => .doc marker
    | none => .plain

/-- The content of a comment whose opener has the given length: a block
comment also loses its closer, if it ends in one that is not part of the
opener. -/
def Rules.contentOf (rules : Rules) (kind : CommentKind) (openerLength : Nat)
    (raw : List Char) : List Char :=
  if kind == .block && rules.blockCloser.endsAt raw
      && openerLength + rules.blockCloser.length ≤ raw.length then
    (raw.drop openerLength).take
      (raw.length - rules.blockCloser.length - openerLength)
  else raw.drop openerLength

end Marginalia
