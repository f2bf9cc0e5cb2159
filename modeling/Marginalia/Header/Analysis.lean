/-
From a header to a declaration.

The declaration is looked for in the innermost expression at the end of
the header, so that a callback in an argument list is found and the call
around it is not. Of an assignment, the right side may declare something
that takes the name of the left side; in front of the end of a statement
the left side itself may be a function with an expression for a body.
-/
import Marginalia.Header.Shape
import Marginalia.Text.Blank

namespace Marginalia

/-- A declaration recognised in a header. -/
structure HeaderMatch where
  shape : HeaderShape
  /-- The declared or assigned name, empty when there is none. -/
  name : String
  /-- The offset of the first token of the declaring expression. -/
  start : Nat
  deriving DecidableEq, Repr

/-- The kind of a declaration whose innermost enclosing class, function or
file is of the given kind: a function with a name is a method in a class
and a function in the file; inside another function it is local, and
counts as anonymous. -/
def HeaderMatch.declarationKind (found : HeaderMatch) (enclosing : ScopeKind) :
    DeclarationKind :=
  match found.shape with
  | .classLike => .classLike
  | .function =>
    if found.name == "" then .anonymousFunction
    else
      match enclosing with
      | .classLike => .method
      | .function | .anonymousFunction => .anonymousFunction
      | .file | .block => .function

-- ======================================================= assignments

/-- Words that bind a name but are none. -/
def bindingWords : List String :=
  ["var", "let", "const", "val", "auto", "this", "self"]

/-- The two sides of an assignment, cut at the last equals sign outside all
brackets, or of a property, cut at the colon after its key. -/
def splitAssignment (ts : List Token) : Option (List Token × List Token) :=
  match splitLastText "=" 0 ts with
  | some sides => some sides
  | none =>
    match ts with
    | key :: colon :: value :: rest =>
      if colon.text == ":" && (key.kind == .word || key.kind == .literal) then
        some ([key], value :: rest)
      else none
    | _ => none

/-- A literal's text without the quotes around it. -/
def unquoted (text : String) : String :=
  String.ofList
    (Text.trimWhile (fun c => c == '\x27' || c == '"' || c == '\x60')
      text.toList)

/-- Read backwards: the first word or literal, without quotes; a word that
only binds is no name. -/
def lastName : List Token → String
  | [] => ""
  | t :: ts =>
    if t.kind == .literal then unquoted t.text
    else if t.isWord then if bindingWords.contains t.text then "" else t.text
    else lastName ts

/-- The name that the left side of an assignment gives: the last one in front
of its type. -/
def assignedName (left : List Token) : String :=
  match splitAtText [":"] left with
  | some (front, _, _) => lastName front.reverse
  | none => lastName left.reverse

-- ========================================================== analysis

/-- What an expression declares after its modifiers; an empty one declares
nothing. -/
def Rules.expressionShape? (rules : Rules) (terminator : Terminator)
    (enclosing : ScopeKind) (signatures : Bool) (expr : List Token) :
    Option (HeaderShape × Label) :=
  if expr.isEmpty then none
  else rules.shape? terminator enclosing signatures (rules.unmodified expr)

/-- The function that the left side of an assignment declares, the right side
being its body. -/
def Rules.leftFunction? (rules : Rules) (enclosing : ScopeKind)
    (left : List Token) : Option (HeaderShape × String) :=
  match rules.expressionShape? .statement enclosing true left with
  | some (.function, label) => some (.function, label.resolve "")
  | _ => none

/-- What an undecorated expression declares. A call on the right of an
assignment is no signature, unless a body follows. -/
def Rules.declaration? (rules : Rules) (terminator : Terminator)
    (enclosing : ScopeKind) (expr : List Token) :
    Option (HeaderShape × String) :=
  match splitAssignment expr with
  | none =>
    (rules.expressionShape? terminator enclosing true expr).map
      fun (shape, label) => (shape, label.resolve "")
  | some (left, right) =>
    match rules.expressionShape? terminator enclosing (terminator == .body)
        right with
    | some (shape, label) => some (shape, label.resolve (assignedName left))
    | none => if terminator == .statement then
      rules.leftFunction? enclosing left else none

/-- What the header in front of a terminator declares. -/
def Rules.analyzeHeader (rules : Rules) (terminator : Terminator)
    (enclosing : ScopeKind) (header : List Token) : Option HeaderMatch :=
  match innermost rules.barClosures header with
  | [] => none
  | first :: rest =>
    match rules.undecorated true (first :: rest) with
    | [] => none
    | expr =>
      (rules.declaration? terminator enclosing expr).map fun (shape, name) =>
        ⟨shape, name, first.start⟩

end Marginalia
