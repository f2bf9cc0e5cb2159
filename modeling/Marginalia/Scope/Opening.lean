/-
How a scope was opened, and what happens to scopes as tokens are read.

A scope is opened by a declaration or by a brace that declares nothing.
Keeping the declaration itself means that the kind, the name and the
declaration of a scope cannot disagree.
-/
import Marginalia.Scope.Basic

namespace Marginalia

/-- What opened a scope. -/
inductive Opening where
  /-- The body of a declaration. -/
  | declaration (site : Site)
  /-- A brace at the given offset that declares nothing. -/
  | block (brace : Nat)
  deriving DecidableEq, Repr

namespace Opening

/-- The scope that was opened. -/
def frame : Opening → Frame
  | declaration site => ⟨site.kind.scopeKind, site.name, site.start⟩
  | block brace => ⟨.block, "", brace⟩

/-- The declaration whose body the scope is. -/
def site? : Opening → Option Site
  | declaration site => some site
  | block _ => none

end Opening

/-- What a token does to the scopes. -/
inductive ScopeEvent where
  /-- A scope was opened inside `depth` scopes; `nested` says that it stands
  inside the parentheses of a header. -/
  | push (depth : Nat) (opening : Opening) (nested : Bool)
  /-- A scope was closed; `depth` scopes are left. -/
  | pop (depth : Nat) (frame : Frame)
  /-- A statement ended inside `depth` scopes, declaring `site`. -/
  | statement (depth : Nat) (site : Option Site)
  /-- A preprocessor line came by. -/
  | directive (depth : Nat)
  deriving DecidableEq, Repr

end Marginalia
