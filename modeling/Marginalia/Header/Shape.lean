/-
What a header declares.

A header is the run of tokens in front of a body or the end of a
statement. Without a grammar, a declaration is told by its shape: an
arrow or a pair of bars makes a lambda, a class keyword a class, a
function keyword or a name with a parameter list a function. Each shape
has a reader here; they are tried in that order, and the first that
recognises the header decides.

Readers look only at tokens outside all brackets, and see the header
after its decorations and modifiers were taken off.
-/
import Marginalia.Header.Decoration
import Marginalia.Scope.Basic

namespace Marginalia

/-- What ends a header. -/
inductive Terminator where
  /-- An opening brace: a body follows. -/
  | body
  /-- The end of a statement without a body. -/
  | statement
  deriving DecidableEq, Repr, Inhabited

/-- What a header declares. -/
inductive HeaderShape where
  | classLike
  | function
  deriving DecidableEq, Repr, Inhabited

/-- The name of a shape. -/
def HeaderShape.name : HeaderShape → String
  | .classLike => "class"
  | .function => "function"

/-- The name a header gives to what it declares. -/
inductive Label where
  /-- This name, or the one it is assigned to if it is empty. -/
  | named (name : String)
  /-- No name, whatever it is assigned to. -/
  | nameless
  deriving DecidableEq, Repr

/-- The name of a declaration that is assigned to `assigned`. -/
def Label.resolve (assigned : String) : Label → String
  | named name => if name == "" then assigned else name
  | nameless => ""

-- ======================================================== word lists

/-- Words that end the names after a class keyword. -/
def classNameStops : List String :=
  ["extends", "implements", "for", "where", "final", "sealed", "constructor",
   "with", "of", "private", "public", "protected", "internal"]

/-- Tokens that cannot follow a parameter list in a declaration. -/
def trailerRejects : List String :=
  ["=", "+", "-", "/", "%", "!", "==", "!=", "===", "!==", "||", "+=", "-=",
   "*=", "/=", "%=", "?.", "??", "=>"]

/-- Signs that a type may end with. -/
def typeSuffixes : List String := ["*", "&", "&&", ">", "]", "?"]

/-- Words that are no type. -/
def nonTypeWords : List String :=
  ["return", "new", "delete", "throw", "await", "yield", "else", "case", "goto",
   "in", "of", "typeof", "instanceof"]

/-- What may follow the equals sign after a prototype. -/
def pureSpecifiers : List String := ["0", "default", "delete"]

-- =========================================================== lambdas

/-- Whether the texts start with a closure's parameters between bars. -/
def startsWithBars : List String → Bool
  | first :: rest => first == "||" || (first == "|" && rest.contains "|")
  | [] => false

/-- Whether the tokens are a closure with parameters between bars. -/
def isBarClosure (expr : List Token) : Bool :=
  match expr.map (·.text) with
  | "move" :: rest => startsWithBars rest
  | texts => startsWithBars texts

/-- Whether the tokens start with a capture list in brackets; two brackets
open an attribute. -/
def startsWithCaptures (expr : List Token) : Bool :=
  match expr.map (·.text) with
  | "[" :: "[" :: _ => false
  | "[" :: _ => true
  | _ => false

-- =========================================================== classes

/-- The names after a class keyword and what follows them. Type arguments
and the signs between the parts of a qualified name are passed over. -/
def classNames : List Token → List String × List Token
  | [] => ([], [])
  | t :: ts =>
    if t.text == "<" then classNames (skipAngle ts)
    else if t.text == "::" || t.text == "." then classNames ts
    else if !t.isWord || classNameStops.contains t.text then ([], t :: ts)
    else
      let (names, rest) := classNames ts
      (t.text :: names, rest)
termination_by ts => ts.length
decreasing_by
  · have := (skipAngle_suffix ts).length_le
    simp only [List.length_cons]
    omega
  · simp
  · simp

/-- The word after the first word `for`, which names what is implemented. -/
def nameAfterFor? (ts : List Token) : Option String :=
  match ts.dropWhile (·.text != "for") with
  | _ :: t :: _ => if t.isWord then some t.text else none
  | _ => none

/-- Whether the tokens after a class keyword are a function's signature: the
word in front of its parameters is neither the class nor a control word. -/
def Rules.returnsClass (rules : Rules) (keyword : Token) (after : List Token)
    (names : List String) (name : String) : Bool :=
  rules.signatureFunctions &&
    match splitAtText ["("] after with
    | none => false
    | some (front, _, _) =>
      let last := front.getLastD keyword
      last.isWord && (1 < names.length || last.text != name)
        && !rules.controlKeywords.contains last.text

/-- Whether names and what follows them declare a class without a body,
rather than a variable of that class. -/
def declaresBodiless (names : List String) (rest : List Token) : Bool :=
  names.length == 1 && rest.head?.all fun t => ["(", "<", ":"].contains t.text

/-- The class that a header declares. -/
def Rules.classShape? (rules : Rules) (terminator : Terminator)
    (expr : List Token) : Option (HeaderShape × Label) :=
  match splitAtKeyword rules.classKeywords [".", "::", "?."] expr with
  | none => none
  | some (_, keyword, after) =>
    let (names, rest) :=
      classNames (after.dropWhile fun t => rules.classKeywords.contains t.text)
    let name := (nameAfterFor? (keyword :: after)).getD (names.getLastD "")
    if rules.returnsClass keyword after names name then none
    else if terminator == .statement && !declaresBodiless names rest then none
    else some (.classLike, .named name)

-- ========================================================= functions

/-- The function that a header declares with a function keyword. Its name is
the word in front of the parameters, type arguments apart. -/
def Rules.keywordShape? (rules : Rules) (expr : List Token) :
    Option (HeaderShape × Label) :=
  match splitAtKeyword rules.functionKeywords [".", "?."] expr with
  | none => none
  | some (_, _, after) =>
    match splitAtText ["("] after with
    | none => none
    | some (front, _, _) =>
      match skipAngleBack front.reverse with
      | t :: _ => some (.function, .named (if t.isWord then t.text else ""))
      | [] => some (.function, .named "")

/-- What follows a parameter list, without an equals sign and the word that
makes the declaration pure. -/
def dropPureSpecifier (trailer : List Token) : List Token :=
  match trailer.reverse with
  | last :: sign :: rest =>
    if sign.text == "=" && pureSpecifiers.contains last.text then rest.reverse
    else trailer
  | _ => trailer

/-- Whether a type may end with the token in front of a name. -/
def Rules.endsType (rules : Rules) (before : Option Token) : Bool :=
  before.any fun t =>
    !nonTypeWords.contains t.text && !rules.controlKeywords.contains t.text
      && (t.isWord || typeSuffixes.contains t.text)

/-- Whether the trailer of a signature can be one, given what ends the header
and what stands in front of the name. Outside a class a prototype needs a
type. -/
def Rules.admitsTrailer (rules : Rules) (terminator : Terminator)
    (enclosing : ScopeKind) (before : Option Token) (trailer : List Token) :
    Bool :=
  match terminator with
  | .body => !trailer.any fun t => trailerRejects.contains t.text
  | .statement =>
    (enclosing == .classLike || rules.endsType before)
      && !(dropPureSpecifier trailer).any fun t =>
        trailerRejects.contains t.text

/-- The function that a header declares by a name and a parameter list. The
word `new` in front of the name makes it an anonymous class body. -/
def Rules.signatureShape? (rules : Rules) (terminator : Terminator)
    (enclosing : ScopeKind) (expr : List Token) :
    Option (HeaderShape × Label) :=
  match splitAtText ["("] expr with
  | none => none
  | some (front, _, parameters) =>
    match skipAngleBack front.reverse with
    | [] => none
    | name :: before =>
      if !name.isWord then none
      else if before.head?.any (·.text == "new") then
        if terminator == .body then some (.classLike, .nameless) else none
      else if rules.controlKeywords.contains name.text then none
      else if before.head?.any fun t => [".", "?.", "->"].contains t.text then
        none
      else
        match afterClose 0 parameters with
        | none => none
        | some trailer =>
          if rules.admitsTrailer terminator enclosing before.head? trailer then
            some (.function, .named name.text)
          else none

-- ======================================================= all of them

/-- What an arrow outside all brackets makes of a header. Before a body the
arrow comes last; an expression after it can still be the body of a
function with a signature. -/
def Rules.arrowShape? (rules : Rules) (terminator : Terminator)
    (enclosing : ScopeKind) (front back : List Token) :
    Option (HeaderShape × Label) :=
  let lambda := some (HeaderShape.function, Label.named "")
  match terminator with
  | .body => if back.isEmpty then lambda else none
  | .statement =>
    if rules.signatureFunctions then
      rules.signatureShape? .statement enclosing front <|> lambda
    else lambda

/-- What an expression declares. Functions without a keyword are looked for
only if `signatures` is set. -/
def Rules.shape? (rules : Rules) (terminator : Terminator)
    (enclosing : ScopeKind) (signatures : Bool) (expr : List Token) :
    Option (HeaderShape × Label) :=
  match splitAtText rules.lambdaArrows expr with
  | some (front, _, back) => rules.arrowShape? terminator enclosing front back
  | none =>
    if rules.barClosures && isBarClosure expr then some (.function, .named "")
    else if rules.bracketLambdas && startsWithCaptures expr
        && terminator == .body then
      some (.function, .named "")
    else
      rules.classShape? terminator expr
        <|> rules.keywordShape? expr
        <|> if rules.signatureFunctions && signatures then
              rules.signatureShape? terminator enclosing expr
            else none

end Marginalia
