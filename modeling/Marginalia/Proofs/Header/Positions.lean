/-
Headers read by position.

A header is read by taking its list of tokens apart from the front. The same
can be done on the whole list with positions that are computed: that of a
keyword, the one behind a group, the one in front of a parenthesis or in
front of the type arguments there. Every access may then be out of range, and
a loop that computes the position to go on at may stand still; either is a
failure (`ByPosition`).

Here is this reading, part by part, with an access wherever a token is looked
at by its position: `Rules.analyzeByPosition` for a header, and
`Rules.isDecorationOnlyByPosition` for its decorations. Where a position is
compared with the length first, the access stands behind that comparison;
the others rely on what was found before.
-/
import Marginalia.Header.Analysis
import Marginalia.Proofs.Position

namespace Marginalia

-- ========================================================== searches

/-- The depths that tokens stand at, `depth` brackets being open before. -/
def depthsFrom (depth : Nat) : List Token → List Nat
  | [] => []
  | t :: ts =>
    t.depthAt depth :: depthsFrom (t.depthAfter (t.depthAt depth)) ts

/-- The depths that the tokens of a header stand at. -/
def depths (ts : List Token) : List Nat := depthsFrom 0 ts

/-- Whether one of the texts stands at the position, outside all brackets. -/
def isTopText (texts : List String) (ts : List Token) (i : Nat) :
    ByPosition Bool := do
  if (← item (depths ts) i) == 0 then
    return texts.contains (← item ts i).text
  else return false

/-- The first position from `start` on that has one of the texts outside all
brackets. -/
def topPosition (texts : List String) (ts : List Token) (start : Nat) :
    ByPosition (Option Nat) :=
  firstPosition (isTopText texts ts) (positionsFrom ts start)

/-- Whether one of the keywords stands at the position, outside all brackets
and behind none of the given signs. -/
def isTopKeyword (keywords notAfter : List String) (ts : List Token) (i : Nat) :
    ByPosition Bool := do
  let t ← item ts i
  if (← item (depths ts) i) == 0 && t.isWord && keywords.contains t.text then
    return !(← itemBefore? ts i).any fun b => notAfter.contains b.text
  else return false

/-- The first position of a keyword. -/
def keywordPosition (keywords notAfter : List String) (ts : List Token) :
    ByPosition (Option Nat) :=
  firstPosition (isTopKeyword keywords notAfter ts) (positionsFrom ts 0)

-- ============================================================ groups

/-- The first of the positions behind which no more brackets have been opened
than closed, `depth` of them being open before. -/
def closeFrom (ts : List Token) (depth : Int) :
    List Nat → ByPosition (Option Nat)
  | [] => return none
  | i :: is => do
    let t ← item ts i
    if t.opens then closeFrom ts (depth + 1) is
    else if t.closes then
      if depth - 1 == 0 then return some i else closeFrom ts (depth - 1) is
    else closeFrom ts depth is

/-- The position of the bracket that closes the one at `opening`. -/
def closePosition (ts : List Token) (opening : Nat) :
    ByPosition (Option Nat) :=
  closeFrom ts 0 (positionsFrom ts opening)

/-- The position behind the group that starts at `opening`. -/
def groupEnd (ts : List Token) (opening : Nat) : ByPosition Nat := do
  match ← closePosition ts opening with
  | some i => return i + 1
  | none => return ts.length

/-- The position behind the sign that closes the angle group at `opening`, if
it is one of the positions; otherwise the one behind `opening`. -/
def angleEndFrom (ts : List Token) (opening : Nat) (depth : Int) :
    List Nat → ByPosition Nat
  | [] => return opening + 1
  | i :: is => do
    let t ← item ts i
    if t.text == "<" then angleEndFrom ts opening (depth + 1) is
    else if t.text == ">" then
      if depth - 1 == 0 then return i + 1
      else angleEndFrom ts opening (depth - 1) is
    else if t.text == "\x7b" || t.text == ";" then return opening + 1
    else angleEndFrom ts opening depth is

/-- The position behind the angle group at `opening`. -/
def angleEnd (ts : List Token) (opening : Nat) : ByPosition Nat :=
  angleEndFrom ts opening 0 (positionsFrom ts opening)

/-- The position in front of the sign that opens an angle group, if it is one
of the positions, which go backwards; otherwise the one in front of all. -/
def angleStartFrom (ts : List Token) (depth : Int) :
    List Nat → ByPosition Int
  | [] => return -1
  | i :: is => do
    let t ← item ts i
    if t.text == ">" then angleStartFrom ts (depth + 1) is
    else if t.text == "<" then
      if depth - 1 == 0 then return i - 1 else angleStartFrom ts (depth - 1) is
    else angleStartFrom ts depth is

/-- The position of what stands in front of the parenthesis, type arguments
apart; there may be no such token. -/
def calleePosition (ts : List Token) (paren : Nat) : ByPosition Int := do
  if (← item ts (paren - 1)).text == ">" then
    angleStartFrom ts 0 (List.range paren).reverse
  else return paren - 1

-- ========================================================= innermost

/-- The positions of the brackets left open, the innermost first. -/
def openFrom (opened : List Nat) : List (Token × Nat) → ByPosition (List Nat)
  | [] => return opened
  | (t, i) :: rest =>
    if t.opens then openFrom (i :: opened) rest
    else if t.closes && !opened.isEmpty then do
      openFrom (← popped opened) rest
    else openFrom opened rest

/-- The position behind the innermost bracket left open. -/
def insidePosition (ts : List Token) : ByPosition Nat := do
  let opened ← openFrom [] ts.zipIdx
  if opened.isEmpty then return 0 else return (← item opened 0) + 1

/-- The position behind the last comma outside all brackets, or `found`. -/
def argumentFrom (bars : Bool) (ts : List Token) (found depth : Nat)
    (inBars : Bool) : List Nat → ByPosition Nat
  | [] => return found
  | i :: is => do
    let t ← item ts i
    if t.opens then argumentFrom bars ts found (depth + 1) inBars is
    else if t.closes then argumentFrom bars ts found (depth - 1) inBars is
    else if t.text == "|" && depth == 0 && bars then
      argumentFrom bars ts found depth (!inBars) is
    else if t.text == "," && depth == 0 && !inBars then
      argumentFrom bars ts (i + 1) depth inBars is
    else argumentFrom bars ts found depth inBars is

/-- The position where the innermost expression of a header starts. -/
def innermostPosition (bars : Bool) (ts : List Token) : ByPosition Nat := do
  let inside ← insidePosition ts
  argumentFrom bars ts inside 0 false (positionsFrom ts inside)

-- ======================================================= decorations

/-- The position behind the dotted rest of a decorator's name. -/
def dottedNameEnd (ts : List Token) (i : Nat) : ByPosition Nat :=
  if i + 1 < ts.length then do
    let dot ← item ts i
    let word ← item ts (i + 1)
    if dot.text == "." && word.isWord then dottedNameEnd ts (i + 2)
    else return i
  else return i
termination_by ts.length - i

/-- The position behind the parenthesised group, if one starts here. -/
def argumentsEnd (ts : List Token) (i : Nat) : ByPosition Nat := do
  if ← holdsAt ts i (·.text == "(") then groupEnd ts i else return i

/-- The position behind the decorator whose sign stands here. -/
def decoratorEnd? (ts : List Token) (i : Nat) : ByPosition (Option Nat) := do
  if ← holdsAt ts (i + 1) (·.isWord) then
    if (← item ts (i + 1)).text == "interface" then return some (i + 1)
    else return some (← argumentsEnd ts (← dottedNameEnd ts (i + 2)))
  else return none

/-- The position behind the exclamation mark, if one stands here. -/
def bangEnd (ts : List Token) (i : Nat) : ByPosition Nat := do
  if ← holdsAt ts i (·.text == "!") then return i + 1 else return i

/-- The position behind the attribute that may start here. -/
def attributeEnd? (ts : List Token) (i : Nat) : ByPosition (Option Nat) := do
  let bracket ← bangEnd ts (if (← item ts i).text == "#" then i + 1 else i)
  if ← holdsAt ts bracket (·.text == "[") then
    return some (← groupEnd ts bracket)
  else return none

/-- The position behind the template parameter list that may start here. -/
def templateEnd? (ts : List Token) (i : Nat) : ByPosition (Option Nat) := do
  if (← item ts i).text == "template" then
    if ← holdsAt ts (i + 1) (·.text == "<") then
      return some (← angleEnd ts (i + 1))
    else return none
  else return none

/-- The first position that is found. -/
def orPosition (first second : ByPosition (Option Nat)) :
    ByPosition (Option Nat) := do
  match ← first with
  | some i => return some i
  | none => second

namespace Rules

/-- The position behind the decoration that may start here. -/
def decorationEnd? (rules : Rules) (ts : List Token) (atStart : Bool)
    (i : Nat) : ByPosition (Option Nat) := do
  let text := (← item ts i).text
  orPosition
    (if rules.decorator == some text then decoratorEnd? ts i else return none)
    (orPosition
      (if rules.attributeOpeners.contains text && atStart then
        attributeEnd? ts i
      else return none)
      (templateEnd? ts i))

/-- The tokens from the position on, without their decorations. -/
def undecoratedFrom (rules : Rules) (ts : List Token) (atStart : Bool)
    (i : Nat) : ByPosition (List Token) :=
  if i < ts.length then do
    match ← rules.decorationEnd? ts atStart i with
    | some next =>
      if i < next then rules.undecoratedFrom ts atStart next
      else .error (.stalled i)
    | none =>
      return (← item ts i) :: (← rules.undecoratedFrom ts false (i + 1))
  else return []
termination_by ts.length - i

/-- Whether a header holds nothing but decorations and modifier words. -/
def isDecorationOnlyByPosition (rules : Rules) (ts : List Token) :
    ByPosition Bool := do
  let kept ← rules.undecoratedFrom ts true 0
  return kept.all fun t => rules.modifierKeywords.contains t.text

/-- The position behind the modifier words. -/
def modifiersEnd (rules : Rules) (ts : List Token) (i : Nat) :
    ByPosition Nat :=
  if i + 1 < ts.length then do
    let t ← item ts i
    let next ← item ts (i + 1)
    if t.isWord && rules.modifierKeywords.contains t.text
        && next.followsModifier then
      rules.modifiersEnd ts (i + 1)
    else return i
  else return i
termination_by ts.length - i

/-- The tokens without the modifier words they start with. -/
def unmodifiedByPosition (rules : Rules) (ts : List Token) :
    ByPosition (List Token) := do
  return ts.drop (← rules.modifiersEnd ts 0)

end Rules

-- =========================================================== classes

/-- The names from the position on, and the position behind them. -/
def classNamesFrom (ts : List Token) (i : Nat) :
    ByPosition (List String × Nat) :=
  if i < ts.length then do
    let t ← item ts i
    if t.text == "<" then
      let next ← angleEnd ts i
      if i < next then classNamesFrom ts next else .error (.stalled i)
    else if t.text == "::" || t.text == "." then classNamesFrom ts (i + 1)
    else if !t.isWord || classNameStops.contains t.text then return ([], i)
    else
      let (names, next) ← classNamesFrom ts (i + 1)
      return (t.text :: names, next)
  else return ([], i)
termination_by ts.length - i

/-- The first position from `start` on with the text, which must be there. -/
def textPosition (text : String) (ts : List Token) (start : Nat) :
    ByPosition Nat := do
  let found ← firstPosition (fun i => do return (← item ts i).text == text)
    (positionsFrom ts start)
  match found with
  | some i => return i
  | none => .error (.absent text)

/-- The last of the names, or none. -/
def lastNameByPosition (names : List String) : ByPosition String :=
  if names.isEmpty then return "" else lastItem names

/-- The name of a class whose keyword stands at the position: the word behind
`for`, or else the given name. -/
def implementedName (ts : List Token) (keyword : Nat) (name : String) :
    ByPosition String := do
  if (ts.drop keyword).any (·.text == "for") then
    let i ← textPosition "for" ts keyword
    if ← holdsAt ts (i + 1) (·.isWord) then return (← item ts (i + 1)).text
    else return name
  else return name

/-- Whether names that end at the position declare no class without a body. -/
def declaresOther (names : List String) (ts : List Token) (i : Nat) :
    ByPosition Bool :=
  if names.length != 1 then return true
  else holdsAt ts i fun t => !(["(", "<", ":"].contains t.text)

namespace Rules

/-- The position behind the class keywords. -/
def classKeywordsEnd (rules : Rules) (ts : List Token) (i : Nat) :
    ByPosition Nat :=
  if i < ts.length then do
    if rules.classKeywords.contains (← item ts i).text then
      rules.classKeywordsEnd ts (i + 1)
    else return i
  else return i
termination_by ts.length - i

/-- Whether the class keyword at the position starts a function's signature. -/
def returnsClassByPosition (rules : Rules) (ts : List Token) (keyword : Nat)
    (names : List String) (name : String) : ByPosition Bool := do
  if rules.signatureFunctions then
    match ← topPosition ["("] ts keyword with
    | none => return false
    | some paren =>
      if 0 < paren then
        let last ← item ts (paren - 1)
        return last.isWord && (1 < names.length || last.text != name)
          && !rules.controlKeywords.contains last.text
      else return false
  else return false

/-- The class that a header declares. -/
def classShapeByPosition (rules : Rules) (terminator : Terminator)
    (ts : List Token) : ByPosition (Option (HeaderShape × Label)) := do
  match ← keywordPosition rules.classKeywords [".", "::", "?."] ts with
  | none => return none
  | some keyword =>
    let first ← rules.classKeywordsEnd ts (keyword + 1)
    let (names, behind) ← classNamesFrom ts first
    let name ← implementedName ts keyword (← lastNameByPosition names)
    if ← rules.returnsClassByPosition ts keyword names name then return none
    else
      match terminator with
      | .body => return some (.classLike, .named name)
      | .statement =>
        if ← declaresOther names ts behind then return none
        else return some (.classLike, .named name)

-- ========================================================= functions

/-- The function that a header declares with a function keyword. -/
def keywordShapeByPosition (rules : Rules) (ts : List Token) :
    ByPosition (Option (HeaderShape × Label)) := do
  match ← keywordPosition rules.functionKeywords [".", "?."] ts with
  | none => return none
  | some keyword =>
    match ← topPosition ["("] ts (keyword + 1) with
    | none => return none
    | some paren =>
      let callee ← calleePosition ts paren
      if keyword < callee then
        let name ← item ts callee
        return some (.function, .named (if name.isWord then name.text else ""))
      else return some (.function, .named "")

end Rules

/-- What follows a parameter list, without an equals sign and the word that
makes the declaration pure. -/
def dropPureByPosition (trailer : List Token) : ByPosition (List Token) :=
  if 2 ≤ trailer.length then do
    let sign ← item trailer (trailer.length - 2)
    let last ← item trailer (trailer.length - 1)
    if sign.text == "=" && pureSpecifiers.contains last.text then
      return trailer.take (trailer.length - 2)
    else return trailer
  else return trailer

namespace Rules

/-- Whether a type may end in front of the name at the position. -/
def endsTypeByPosition (rules : Rules) (ts : List Token) (name : Int) :
    ByPosition Bool := do
  match ← itemBefore? ts name with
  | none => return false
  | some before =>
    if nonTypeWords.contains before.text
        || rules.controlKeywords.contains before.text then
      return false
    else
      return (← item ts (name - 1)).isWord || typeSuffixes.contains before.text

/-- Whether the trailer of a signature whose name stands at the position can be
one. -/
def admitsTrailerByPosition (rules : Rules) (terminator : Terminator)
    (enclosing : ScopeKind) (ts : List Token) (name : Int)
    (trailer : List Token) : ByPosition Bool :=
  match terminator with
  | .body => return !trailer.any fun t => trailerRejects.contains t.text
  | .statement => do
    let trailer ← dropPureByPosition trailer
    let typed ←
      if enclosing == .classLike then pure true
      else rules.endsTypeByPosition ts name
    return typed && !trailer.any fun t => trailerRejects.contains t.text

/-- What a name at a position in front of the parenthesis declares. -/
def calleeShapeByPosition (rules : Rules) (terminator : Terminator)
    (enclosing : ScopeKind) (ts : List Token) (paren : Nat) (callee : Int) :
    ByPosition (Option (HeaderShape × Label)) := do
  let name ← item ts callee
  let before ← itemBefore? ts callee
  if !name.isWord then return none
  else if before.any (·.text == "new") then
    return if terminator == .body then some (.classLike, .nameless) else none
  else if rules.controlKeywords.contains name.text then return none
  else if before.any fun t => [".", "?.", "->"].contains t.text then
    return none
  else
    match ← closePosition ts paren with
    | none => return none
    | some close =>
      if ← rules.admitsTrailerByPosition terminator enclosing ts callee
          (ts.drop (close + 1)) then
        return some (.function, .named name.text)
      else return none

/-- The function that a header declares by a name and a parameter list. -/
def signatureShapeByPosition (rules : Rules) (terminator : Terminator)
    (enclosing : ScopeKind) (ts : List Token) :
    ByPosition (Option (HeaderShape × Label)) := do
  match ← topPosition ["("] ts 0 with
  | none => return none
  | some paren =>
    if paren == 0 then return none
    else
      let callee ← calleePosition ts paren
      if callee < 0 then return none
      else
        rules.calleeShapeByPosition terminator enclosing ts paren callee

end Rules

-- =========================================================== lambdas

/-- Whether the tokens start with a closure's parameters between bars. -/
def startsWithBarsByPosition (ts : List Token) : ByPosition Bool :=
  if ts.isEmpty then return false
  else do
    let first ← item ts 0
    return first.text == "||"
      || (first.text == "|" && ((ts.drop 1).map (·.text)).contains "|")

/-- Whether the tokens are a closure with parameters between bars. -/
def isBarClosureByPosition (ts : List Token) : ByPosition Bool := do
  if ← holdsAt ts 0 (·.text == "move") then startsWithBarsByPosition (ts.drop 1)
  else startsWithBarsByPosition ts

/-- Whether the tokens, of which there is one, start with a capture list. -/
def startsWithCapturesByPosition (ts : List Token) : ByPosition Bool := do
  return (← item ts 0).text == "["
    && ((ts.drop 1).take 1).map (·.text) != ["["]

namespace Rules

/-- Whether the tokens are a lambda without an arrow. -/
def isLambdaByPosition (rules : Rules) (terminator : Terminator)
    (ts : List Token) : ByPosition Bool := do
  let bars ←
    if rules.barClosures then isBarClosureByPosition ts else pure false
  if bars then return true
  else if rules.bracketLambdas then
    return (← startsWithCapturesByPosition ts) && terminator == .body
  else return false

/-- What an arrow at the position makes of a header. -/
def arrowShapeByPosition (rules : Rules) (terminator : Terminator)
    (enclosing : ScopeKind) (ts : List Token) (arrow : Nat) :
    ByPosition (Option (HeaderShape × Label)) :=
  match terminator with
  | .body =>
    if (arrow : Int) != ts.length - 1 then return none
    else return some (.function, .named "")
  | .statement =>
    if rules.signatureFunctions then do
      match ← rules.signatureShapeByPosition .statement enclosing
          (ts.take arrow) with
      | some found => return some found
      | none => return some (.function, .named "")
    else return some (.function, .named "")

/-- What an expression with at least one token declares. -/
def shapeByPosition (rules : Rules) (terminator : Terminator)
    (enclosing : ScopeKind) (signatures : Bool) (ts : List Token) :
    ByPosition (Option (HeaderShape × Label)) := do
  match ← topPosition rules.lambdaArrows ts 0 with
  | some arrow => rules.arrowShapeByPosition terminator enclosing ts arrow
  | none =>
    if ← rules.isLambdaByPosition terminator ts then
      return some (.function, .named "")
    else
      match ← rules.classShapeByPosition terminator ts with
      | some found => return some found
      | none =>
        match ← rules.keywordShapeByPosition ts with
        | some found => return some found
        | none =>
          if rules.signatureFunctions && signatures then
            rules.signatureShapeByPosition terminator enclosing ts
          else return none

end Rules

-- ========================================================== analysis

/-- Whether the tokens are a property, with a colon behind its key. -/
def isPropertyByPosition (ts : List Token) : ByPosition Bool :=
  if 2 < ts.length then do
    if (← item ts 1).text == ":" then
      let key ← item ts 0
      return key.kind == .word || key.kind == .literal
    else return false
  else return false

/-- The left side of an assignment or property, if the tokens are one, and the
right side. -/
def sidesByPosition (ts : List Token) :
    ByPosition (Option (List Token) × List Token) := do
  let positions := (positionsFrom ts 0).reverse
  match ← firstPosition (isTopText ["="] ts) positions with
  | some i => return (some (ts.take i), ts.drop (i + 1))
  | none =>
    if ← isPropertyByPosition ts then return (some (ts.take 1), ts.drop 2)
    else return (none, ts)

/-- The name that the left side of an assignment gives. -/
def assignedNameByPosition (left : List Token) : ByPosition String := do
  match ← topPosition [":"] left 0 with
  | some colon => return lastName (left.take colon).reverse
  | none => return lastName left.reverse

/-- The name that the left side gives, if there is one. -/
def givenNameByPosition : Option (List Token) → ByPosition String
  | some left => assignedNameByPosition left
  | none => return ""

namespace Rules

/-- What an expression declares after its modifiers, if anything follows. -/
def expressionByPosition (rules : Rules) (terminator : Terminator)
    (enclosing : ScopeKind) (signatures : Bool) (ts : List Token) :
    ByPosition (Option (HeaderShape × Label)) := do
  let expr ← rules.unmodifiedByPosition ts
  if expr.isEmpty then return none
  else rules.shapeByPosition terminator enclosing signatures expr

/-- The function that the left side of an assignment declares. -/
def leftFunctionByPosition (rules : Rules) (enclosing : ScopeKind)
    (left : List Token) : ByPosition (Option (HeaderShape × String)) := do
  match ← rules.shapeByPosition .statement enclosing true
      (← rules.unmodifiedByPosition left) with
  | some (.function, label) => return some (.function, label.resolve "")
  | _ => return none

/-- What an undecorated expression declares. -/
def declarationByPosition (rules : Rules) (terminator : Terminator)
    (enclosing : ScopeKind) (ts : List Token) :
    ByPosition (Option (HeaderShape × String)) := do
  let (left?, right) ← sidesByPosition ts
  let assigned ← givenNameByPosition left?
  let found ← rules.expressionByPosition terminator enclosing
    (left?.isNone || terminator == .body) right
  match found, left? with
  | some (shape, label), _ => return some (shape, label.resolve assigned)
  | none, none => return none
  | none, some left =>
    if !left.isEmpty && terminator == .statement then
      rules.leftFunctionByPosition enclosing left
    else return none

/-- What the header in front of a terminator declares. -/
def analyzeByPosition (rules : Rules) (terminator : Terminator)
    (enclosing : ScopeKind) (header : List Token) :
    ByPosition (Option HeaderMatch) := do
  let tail := header.drop (← innermostPosition rules.barClosures header)
  if tail.isEmpty then return none
  else
    let start := (← item tail 0).start
    let expr ← rules.undecoratedFrom tail true 0
    if expr.isEmpty then return none
    else
      let found ← rules.declarationByPosition terminator enclosing expr
      return found.map fun (shape, name) => ⟨shape, name, start⟩

end Rules

end Marginalia
