/-
Notices: what a scan reports about its own progress, for a log.

Problems of the text are warnings; everything else is detail for whoever
looks into why a comment was bound or not.
-/
import Marginalia.Diagnostic

namespace Marginalia

/-- Something worth a line in the log. -/
inductive Notice where
  /-- A diagnostic was made. -/
  | problem (diagnostic : Diagnostic)
  /-- The brace at the offset opened a scope. -/
  | opened (frame : Frame) (brace : Nat)
  /-- No declaration within the window after the comment on the line; the
  window's size is given as it was written. -/
  | windowExceeded (line : Nat) (window : String)
  /-- The comment on the line documents nothing. -/
  | orphaned (line : Nat)
  /-- The comment on the line documents the declaration. -/
  | bound (line : Nat) (site : Site)
  /-- A scan came to its end. -/
  | scanned (length : Nat) (dialect : Dialect)
    (boundCount orphanCount diagnosticCount : Nat)
  deriving DecidableEq, Repr

namespace Notice

/-- Whether a notice is a warning. -/
def isWarning : Notice → Bool
  | problem _ => true
  | _ => false

/-- The text of a notice. -/
def message : Notice → String
  | problem diagnostic => diagnostic.message
  | opened frame brace =>
    "Opened " ++ frame.kind.name ++ " scope '" ++ frame.name ++ "' at offset "
      ++ toString brace
  | windowExceeded line window =>
    "Doc comment at line " ++ toString line ++ " exceeded " ++ window
      ++ " header tokens"
  | orphaned line => "Orphaned doc comment at line " ++ toString line
  | bound line site =>
    "Bound doc comment at line " ++ toString line ++ " to "
      ++ site.kind.name ++ " '" ++ site.qualifiedName ++ "'"
  | scanned length dialect boundCount orphanCount diagnosticCount =>
    "Scanned " ++ toString length ++ " chars of " ++ dialect.name ++ ": "
      ++ toString boundCount ++ " bound, " ++ toString orphanCount
      ++ " orphaned, " ++ toString diagnosticCount ++ " diagnostics"

end Notice

end Marginalia
