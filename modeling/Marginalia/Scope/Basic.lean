/-
Scopes and declarations.

A scope is what a pair of braces encloses; the whole file is the
outermost one. A declaration site is a place where a class or function is
declared, together with the scopes around it.
-/
namespace Marginalia

/-- The kinds of scopes. -/
inductive ScopeKind where
  | file
  | classLike
  | function
  | anonymousFunction
  | block
  deriving DecidableEq, Repr, Inhabited

/-- All kinds of scopes. -/
def ScopeKind.all : List ScopeKind :=
  [.file, .classLike, .function, .anonymousFunction, .block]

/-- The name of a scope kind. -/
def ScopeKind.name : ScopeKind → String
  | .file => "file"
  | .classLike => "class"
  | .function => "function"
  | .anonymousFunction => "anonymous_function"
  | .block => "block"

/-- An open scope. Scopes without a name have the empty one; `start` is the
offset of the declaration, or of the brace when nothing was declared. -/
structure Frame where
  kind : ScopeKind
  name : String
  start : Nat
  deriving DecidableEq, Repr, Inhabited

/-- A scope as an element of a path. -/
structure ScopeRef where
  kind : ScopeKind
  name : String
  deriving DecidableEq, Repr, Inhabited

/-- The path element of an open scope. -/
def Frame.ref (frame : Frame) : ScopeRef := ⟨frame.kind, frame.name⟩

/-- The scope of the whole file. -/
def Frame.file : Frame := ⟨.file, "", 0⟩

/-- The kinds of declarations. -/
inductive DeclarationKind where
  | classLike
  | function
  | method
  | anonymousFunction
  deriving DecidableEq, Repr, Inhabited

/-- All kinds of declarations. -/
def DeclarationKind.all : List DeclarationKind :=
  [.classLike, .function, .method, .anonymousFunction]

/-- The name of a declaration kind. -/
def DeclarationKind.name : DeclarationKind → String
  | .classLike => "class"
  | .function => "function"
  | .method => "method"
  | .anonymousFunction => "anonymous_function"

/-- The kind of scope that the body of a declaration opens. -/
def DeclarationKind.scopeKind : DeclarationKind → ScopeKind
  | .classLike => .classLike
  | .function | .method => .function
  | .anonymousFunction => .anonymousFunction

/-- A place where a class or function is declared. -/
structure Site where
  kind : DeclarationKind
  /-- The declared name, empty for anonymous declarations. -/
  name : String
  /-- The offset of the first token of the declaring statement. -/
  start : Nat
  /-- The line of that token. -/
  line : Nat
  /-- The enclosing scopes, the file first. -/
  path : List ScopeRef
  deriving DecidableEq, Repr, Inhabited

/-- The number of scopes around a declaration. -/
def Site.depth (site : Site) : Nat := site.path.length

/-- The path element of the scope that the declaration's body opens. -/
def Site.ref (site : Site) : ScopeRef := ⟨site.kind.scopeKind, site.name⟩

/-- The dotted names of the enclosing named scopes and the declaration. -/
def Site.qualifiedName (site : Site) : String :=
  ".".intercalate
    ((site.path.map (·.name)).filter (· ≠ "")
      ++ [if site.name = "" then "<anonymous>" else site.name])

end Marginalia
