/-
Reading patterns.

The usual writing of regular expressions: literals, the dot, anchors,
classes in brackets, groups with and without names, alternatives,
repetitions that prefer many, prefer few or keep the most, assertions
about what precedes or follows, references to groups, conditions on
groups, and flags for the whole pattern or a part of it. A brace that does
not write a count stands for itself.

A text that is not a pattern is refused. Some faults count only if the
rest of the text holds no other: they are noted in the draft while the
reading goes on.
-/
import Marginalia.Pattern.Match
import Marginalia.Text.Integer
import Marginalia.Text.Lines

namespace Marginalia

/-- Why a text is no pattern. -/
inductive PatternError where
  /-- The text does not follow the rules of the writing. -/
  | malformed
  /-- A count or a code point that is too large. -/
  | tooLarge
  /-- A count with too many digits. -/
  | tooManyDigits (digits : Nat)
  /-- Both the seven-bit and the full alphabet are asked for. -/
  | mixedAlphabets
  /-- Groups are nested too deeply. -/
  | tooDeep
  deriving DecidableEq, Repr

/-- What is said of a text that is no pattern. -/
def PatternError.message : PatternError → String
  | malformed => "The pattern is not well formed"
  | tooLarge => "A number in the pattern is too large"
  | tooManyDigits digits => Text.tooManyDigitsMessage (some digits)
  | mixedAlphabets => "ASCII and UNICODE flags are incompatible"
  | tooDeep => "The pattern is nested too deeply"

namespace Pattern

-- ============================================================= signs

/-- A sign of a pattern's text: a character, or one after a backslash. -/
structure Sign where
  char : Char
  escaped : Bool
  deriving DecidableEq, Repr

/-- The signs of a text, and whether it ends in a lone backslash. -/
def signsOf : List Char → List Sign × Bool
  | [] => ([], false)
  | ['\\'] => ([], true)
  | '\\' :: c :: cs => let (signs, cut) := signsOf cs; (⟨c, true⟩ :: signs, cut)
  | c :: cs => let (signs, cut) := signsOf cs; (⟨c, false⟩ :: signs, cut)

/-- Whether the sign is the character itself. -/
def Sign.is (sign : Sign) (c : Char) : Bool := !sign.escaped && sign.char == c

-- ============================================================= flags

/-- What the flags of a pattern or a part of it say. -/
structure Flags where
  ignoreCase : Bool := false
  multiline : Bool := false
  dotAll : Bool := false
  /-- White space and comments in the pattern are passed over. -/
  verbose : Bool := false
  /-- Classes and letters are those of seven-bit text. -/
  basic : Bool := false
  /-- No repetitions are allowed. -/
  template : Bool := false
  deriving DecidableEq, Repr

/-- The flags with the one of a letter switched. -/
def Flags.set (flags : Flags) (letter : Char) (on : Bool) : Flags :=
  match letter with
  | 'i' => { flags with ignoreCase := on }
  | 'm' => { flags with multiline := on }
  | 's' => { flags with dotAll := on }
  | 'x' => { flags with verbose := on }
  | 'a' => { flags with basic := on }
  | 'u' => { flags with basic := !on }
  | 't' => { flags with template := on }
  | _ => flags

/-- The letters of the flags. -/
def flagLetters : List Char := ['i', 'L', 'm', 's', 'x', 'a', 't', 'u']

/-- Which letters count as the same under the flags. -/
def Flags.folding (flags : Flags) : Folding :=
  if !flags.ignoreCase then .exact
  else if flags.basic then .basicLetters
  else .letters

/-- The class that an escaped letter stands for. -/
def Flags.classOf? (flags : Flags) (letter : Char) : Option CharClass :=
  let digits : CharClass := if flags.basic then .basicDigit else .digit
  let blanks : CharClass := if flags.basic then .basicBlank else .blank
  let words : CharClass := if flags.basic then .basicWord else .word
  match letter with
  | 'd' => some digits
  | 'D' => some (.not digits)
  | 's' => some blanks
  | 'S' => some (.not blanks)
  | 'w' => some words
  | 'W' => some (.not words)
  | _ => none

/-- The condition that an escaped letter stands for. -/
def Flags.anchorOf? (flags : Flags) : Char → Option Anchor
  | 'A' => some .textStart
  | 'Z' => some .textEnd
  | 'b' => some (.boundary flags.basic)
  | 'B' => some (.notBoundary flags.basic)
  | _ => none

-- ============================================================ drafts

/-- What is left of a pattern's text, and what was found out so far. -/
structure Draft where
  signs : List Sign
  /-- The text ends in a lone backslash. -/
  cut : Bool
  flags : Flags := {}
  /-- The letters of the flags for the whole pattern. -/
  letters : List Char := []
  /-- How many groups were opened. -/
  count : Nat := 0
  /-- The widths of the groups that were closed. -/
  widths : List (Nat × Nat × Option Nat) := []
  names : List (List Char × Nat) := []
  /-- The groups whose matches have to be remembered. -/
  used : List Nat := []
  /-- Inside an assertion about what precedes: how many groups were opened
  before it. -/
  openedBefore : Option Nat := none
  /-- There is a fault, unless the rest of the text has a worse one. -/
  flawed : Bool := false

/-- Reads a part of a pattern. -/
abbrev Reader (α : Type) := StateT Draft (Except PatternError) α

/-- Goes on with the given signs. A lone backslash at the end of the text is
noticed as soon as it is next. -/
def goTo (signs : List Sign) : Reader Unit := do
  if signs.isEmpty && (← get).cut then throw .malformed
  modify fun draft => { draft with signs }

/-- The next sign, which stays. -/
def peek : Reader (Option Sign) := return (← get).signs.head?

/-- The next sign, which is taken. -/
def take : Reader (Option Sign) := do
  match (← get).signs with
  | [] => return none
  | sign :: signs => do
    goTo signs
    return some sign

/-- The next sign, which there has to be. -/
def demand : Reader Sign := do
  match ← take with
  | some sign => return sign
  | none => throw .malformed

/-- Takes the next sign if it is the given character. -/
def accept (c : Char) : Reader Bool := do
  match ← peek with
  | some sign =>
    if sign.is c then do
      let _ ← take
      return true
    else return false
  | none => return false

/-- Takes at most `n` signs that satisfy `p`, and gives their characters. -/
def takeSome (n : Nat) (p : Char → Bool) : Reader (List Char) := do
  let taken :=
    ((← get).signs.take n).takeWhile fun sign => !sign.escaped && p sign.char
  goTo ((← get).signs.drop taken.length)
  return taken.map (·.char)

/-- The characters up to the given one, at least one, none of them escaped. -/
def takeName (stop : Char) : Reader (List Char) := do
  let taken := (← get).signs.takeWhile (!·.is stop)
  match (← get).signs.drop taken.length with
  | [] => throw .malformed
  | _ :: rest => do
    if taken.isEmpty || taken.any (·.escaped) then throw .malformed
    goTo rest
    return taken.map (·.char)

-- =========================================================== escapes

/-- Whether a character is a digit of the base eight. -/
def isOctal (c : Char) : Bool := '0' ≤ c && c ≤ '7'

/-- The control character that an escaped letter stands for. -/
def control? : Char → Option Char
  | 'a' => some '\x07'
  | 'f' => some '\x0c'
  | 'n' => some '\n'
  | 'r' => some '\r'
  | 't' => some '\t'
  | 'v' => some '\x0b'
  | _ => none

/-- The code point written by exactly `width` hexadecimal digits. -/
def readCode (width : Nat) : Reader Nat := do
  let digits ← takeSome width fun c => (Text.hexValue? c).isSome
  if digits.length < width then throw .malformed
  let n := Text.digitsIn 16 digits
  if 0x80000000 ≤ n then throw .tooLarge
  if 0x110000 ≤ n then throw .malformed
  return n

/-- The code point that an escape stands for whose character is no digit.
Letters without a meaning are refused. -/
def readEscaped (c : Char) : Reader Nat := do
  match control? c with
  | some control => return control.toNat
  | none =>
    match c with
    | 'x' => readCode 2
    | 'u' => readCode 4
    | 'U' => readCode 8
    | _ => if c.isAlpha then throw .malformed else return c.toNat

/-- A code point of at most three octal digits. -/
def octalCode (digits : List Char) : Reader Nat := do
  let n := Text.digitsIn 8 digits
  if 0o377 < n then throw .malformed
  return n

-- ========================================================== brackets

/-- One end of a range in brackets: a class or a code point. -/
def readRangeEnd (flags : Flags) (sign : Sign) : Reader (CharClass ⊕ Nat) := do
  let c := sign.char
  if !sign.escaped then return .inr c.toNat
  match flags.classOf? c with
  | some cls => return .inl cls
  | none =>
    if c == 'b' then return .inr 0x08
    else if isOctal c then
      return .inr (← octalCode (c :: (← takeSome 2 isOctal)))
    else if c.isDigit then throw .malformed
    else return .inr (← readEscaped c)

/-- The class of one end that is no range. -/
def endClass : CharClass ⊕ Nat → CharClass
  | .inl cls => cls
  | .inr n => .range n n

/-- The classes between brackets, the last one first; `items` are those read
so far. A closing bracket that comes first stands for itself. -/
def readItems (flags : Flags) : Nat → List CharClass → Reader (List CharClass)
  | 0, _ => throw .malformed
  | fuel + 1, items => do
    let sign ← demand
    if sign.is ']' && !items.isEmpty then return items
    let low ← readRangeEnd flags sign
    if ← accept '-' then
      let next ← demand
      if next.is ']' then return .single '-' :: endClass low :: items
      match low, ← readRangeEnd flags next with
      | .inr a, .inr b =>
        if b < a then throw .malformed
        else readItems flags fuel (.range a b :: items)
      | _, _ => throw .malformed
    else readItems flags fuel (endClass low :: items)

/-- The class whose opening bracket was read. -/
def readClass (flags : Flags) : Reader CharClass := do
  let negated ← accept '^'
  let items ← readItems flags ((← get).signs.length + 1) []
  return if negated then .not (.anyOf items) else .anyOf items

-- ======================================================= repetitions

/-- The least count that is too large. -/
def countLimit : Nat := 4294967295

/-- The number of a count. -/
def countOf (digits : List Char) : Except PatternError Nat :=
  if Text.maxDigits < digits.length then throw (.tooManyDigits digits.length)
  else if countLimit ≤ Text.digitsValue digits then throw .tooLarge
  else return Text.digitsValue digits

/-- The digits of the bounds of a count whose opening brace was read, and the
signs after it; none if it writes no count. -/
def countSigns? (signs : List Sign) :
    Option (List Char × List Char × List Sign) :=
  let isDigit (sign : Sign) : Bool := !sign.escaped && sign.char.isDigit
  let low := (signs.takeWhile isDigit).map (·.char)
  match signs.dropWhile isDigit with
  | [] => none
  | sign :: rest =>
    if sign.is '\x7d' then if low.isEmpty then none else some (low, low, rest)
    else if sign.is ',' then
      match rest.dropWhile isDigit with
      | [] => none
      | last :: after =>
        if last.is '\x7d' then
          some (low, (rest.takeWhile isDigit).map (·.char), after)
        else none
    else none

/-- The bounds of the repetition that a sign starts; none if the sign is a
brace that writes no count. -/
def readBounds (sign : Char) : Reader (Option (Nat × Option Nat)) := do
  match sign with
  | '*' => return some (0, none)
  | '+' => return some (1, none)
  | '?' => return some (0, some 1)
  | _ =>
    match countSigns? (← get).signs with
    | none => return none
    | some (low, high, rest) => do
      goTo rest
      let least ← if low.isEmpty then pure 0 else liftM (countOf low)
      let most ←
        if high.isEmpty then pure none else some <$> liftM (countOf high)
      if most.any (· < least) then throw .malformed
      return some (least, most)

/-- Which number of repetitions the next sign says to prefer. -/
def readPreference : Reader Preference := do
  if ← accept '?' then return .least
  else if ← accept '+' then return .onlyMost
  else return .most

-- ============================================================ pieces

/-- What a piece is, as far as repeating it goes. -/
inductive PieceKind where
  | anchor
  | repetition
  | other
  deriving DecidableEq, Repr

/-- A piece of a sequence. -/
structure Piece where
  pattern : Pattern
  kind : PieceKind := .other

/-- The pieces one after the other; the last one comes first. -/
def ofPieces (pieces : List Piece) : Pattern :=
  match pieces with
  | [] => nothing
  | last :: before =>
    before.foldl (fun rest piece => seq piece.pattern rest) last.pattern

/-- The pieces with the last one repeated. Neither an anchor nor a repetition
may be repeated. -/
def repeatLast (flags : Flags) (bounds : Nat × Option Nat)
    (pieces : List Piece) : Reader (List Piece) := do
  match pieces with
  | [] => throw .malformed
  | last :: before => do
    if last.kind != .other then throw .malformed
    let preference ← readPreference
    if flags.template then modify fun draft => { draft with flawed := true }
    return ⟨repeated last.pattern bounds.1 bounds.2 preference, .repetition⟩
      :: before

/-- The piece of a code point. -/
def codePiece (flags : Flags) (n : Nat) : Piece :=
  ⟨char (.range n n) flags.folding, .other⟩

/-- Notes that the matches of a group have to be remembered. -/
def useGroup (number : Nat) : Reader Unit :=
  modify fun draft => { draft with used := number :: draft.used }

/-- Inside an assertion about what precedes, only groups that were closed
before it may be asked for. -/
def checkPreceding (number : Nat) : Reader Unit := do
  let draft ← get
  match draft.openedBefore with
  | none => return ()
  | some before =>
    if before < number || !draft.widths.any (·.1 == number) then
      throw .malformed

/-- What a closed group matched, again. -/
def readAgain (flags : Flags) (number : Nat) : Reader Piece := do
  if !(← get).widths.any (·.1 == number) then throw .malformed
  checkPreceding number
  useGroup number
  return ⟨again number flags.folding, .other⟩

/-- An escape whose character is a digit other than zero: an octal number of
three digits or a reference to a group. -/
def readNumbered (flags : Flags) (c : Char) : Reader Piece := do
  let second ← takeSome 1 Char.isDigit
  let third ←
    if isOctal c && second.any isOctal then takeSome 1 isOctal else pure []
  if third.isEmpty then readAgain flags (Text.digitsValue (c :: second))
  else return codePiece flags (← octalCode (c :: second ++ third))

/-- The piece that an escape stands for. -/
def readEscape (flags : Flags) (c : Char) : Reader Piece := do
  match flags.anchorOf? c, flags.classOf? c with
  | some condition, _ => return ⟨.anchor condition, .anchor⟩
  | none, some cls => return ⟨char cls flags.folding, .other⟩
  | none, none =>
    if c == '0' then
      return codePiece flags (Text.digitsIn 8 (← takeSome 2 isOctal))
    else if c.isDigit then readNumbered flags c
    else return codePiece flags (← readEscaped c)

-- ==================================================== group openings

/-- The letters of flags, the last one first, and the sign after them. -/
def readLetters : Nat → List Char → Sign → Reader (List Char × Char)
  | 0, _, _ => throw .malformed
  | fuel + 1, letters, sign =>
    if sign.escaped then throw .malformed
    else if flagLetters.contains sign.char then do
      readLetters fuel (sign.char :: letters) (← demand)
    else return (letters, sign.char)

/-- The flags that a group opens with: those switched on, and, unless they are
for the whole pattern, those switched off. -/
def readFlags (sign : Sign) : Reader (List Char × Option (List Char)) := do
  let (on, stop) ← readLetters ((← get).signs.length + 1) [] sign
  if on.contains 'L' || (on.contains 'a' && on.contains 'u') then
    throw .malformed
  match stop with
  | ')' => if on.isEmpty then throw .malformed else return (on, none)
  | ':' =>
    if on.isEmpty || on.contains 't' then throw .malformed
    else return (on, some [])
  | '-' => do
    let (off, stop) ← readLetters ((← get).signs.length + 1) [] (← demand)
    if off.isEmpty || stop != ':' || on.contains 't' then throw .malformed
    if off.any fun letter => ['a', 'u', 'L', 't'].contains letter
        || on.contains letter then
      throw .malformed
    return (on, some off)
  | _ => throw .malformed

/-- Whether a text is a name: a word that does not start with a digit. -/
def isName (cs : List Char) : Bool :=
  cs.all Text.isWordChar && !cs.head?.all Text.isDigit

/-- The number of the group that a condition asks for. -/
def readAsked : Reader Nat := do
  let name ← takeName ')'
  let number ←
    if isName name then
      match (← get).names.lookup name with
      | some number => pure number
      | none => throw .malformed
    else
      match Text.integer? name with
      | some n => if n ≤ 0 then throw .malformed else pure n.toNat
      | none => throw .malformed
  checkPreceding number
  useGroup number
  return number

/-- The number of a new group, which may have a name. -/
def openGroup (name : Option (List Char)) : Reader Nat := do
  let number := (← get).count + 1
  match name with
  | none => modify fun draft => { draft with count := number }
  | some name => do
    if !isName name || ((← get).names.lookup name).isSome then throw .malformed
    modify fun draft =>
      { draft with count := number, names := (name, number) :: draft.names }
  return number

/-- Notes the width of a group that ends. -/
def closeGroup (number : Nat) (body : Pattern) : Reader Unit :=
  modify fun draft =>
    { draft with widths := (number, body.width draft.widths) :: draft.widths }

-- ========================================================== patterns

/-- How deeply groups may be nested; a condition counts half. -/
def nestingRoom : Nat := 2 * 489

/-- The part of the room for nesting that is left inside a group. -/
def enter (room size : Nat) : Reader Nat :=
  if room < size then throw .tooDeep else return room - size

/-- The white space that verbose patterns pass over. -/
def isPatternBlank (c : Char) : Bool :=
  c == ' ' || c == '\t' || c == '\n' || c == '\r' || c == '\x0b' || c == '\x0c'

/-- Passes over the signs up to and with the given one. -/
def skipPast (stop : Char) : Reader Bool := do
  match (← get).signs.dropWhile (!·.is stop) with
  | [] => do
    goTo []
    return false
  | _ :: rest => do
    goTo rest
    return true

/-- Takes the parenthesis that closes a group. -/
def readClosing : Reader Unit := do
  if !(← accept ')') then throw .malformed

mutual

/-- The alternatives up to a closing parenthesis or the end of the text. On
the top level the flags are those for the whole pattern. -/
def readAlternatives (fuel room : Nat) (flags : Option Flags) (leading : Bool) :
    Reader Pattern :=
  match fuel with
  | 0 => throw .malformed
  | fuel + 1 => do
    let first ← readSequence fuel room (flags.getD (← get).flags) leading []
    if ← accept '|' then
      return alt first (← readAlternatives fuel room flags false)
    else return first

/-- The pieces up to a bar, a closing parenthesis or the end of the text.
`leading` says that flags for the whole pattern may still come. -/
def readSequence (fuel room : Nat) (flags : Flags) (leading : Bool)
    (pieces : List Piece) : Reader Pattern :=
  match fuel with
  | 0 => throw .malformed
  | fuel + 1 => do
    match ← peek with
    | none => return ofPieces pieces
    | some sign =>
      if sign.is '|' || sign.is ')' then return ofPieces pieces
      let _ ← take
      let c := sign.char
      if sign.escaped then
        readSequence fuel room flags leading ((← readEscape flags c) :: pieces)
      else if flags.verbose && isPatternBlank c then
        readSequence fuel room flags leading pieces
      else if flags.verbose && c == '#' then do
        let _ ← skipPast '\n'
        readSequence fuel room flags leading pieces
      else
        match c with
        | '^' =>
          let condition :=
            if flags.multiline then Anchor.lineStart else .textStart
          readSequence fuel room flags leading
            (⟨.anchor condition, .anchor⟩ :: pieces)
        | '$' =>
          let condition :=
            if flags.multiline then Anchor.lineEnd else .lastLineEnd
          readSequence fuel room flags leading
            (⟨.anchor condition, .anchor⟩ :: pieces)
        | '.' =>
          let cls : CharClass :=
            .not (if flags.dotAll then .anyOf [] else .single '\n')
          readSequence fuel room flags leading
            (⟨char cls .exact, .other⟩ :: pieces)
        | '[' => do
          let cls ← readClass flags
          readSequence fuel room flags leading
            (⟨char cls flags.folding, .other⟩ :: pieces)
        | '(' =>
          if ← accept '?' then
            readSpecial fuel room flags leading pieces
          else do
            let piece ← readGroup fuel room flags none
            readSequence fuel room flags leading (piece :: pieces)
        | _ =>
          if ['*', '+', '?', '\x7b'].contains c then do
            match ← readBounds c with
            | none =>
              readSequence fuel room flags leading
                (codePiece flags c.toNat :: pieces)
            | some bounds => do
              readSequence fuel room flags leading
                (← repeatLast flags bounds pieces)
          else
            readSequence fuel room flags leading
              (codePiece flags c.toNat :: pieces)

/-- A group that is remembered and its closing parenthesis. -/
def readGroup (fuel room : Nat) (flags : Flags) (name : Option (List Char)) :
    Reader Piece :=
  match fuel with
  | 0 => throw .malformed
  | fuel + 1 => do
    let number ← openGroup name
    let body ← readAlternatives fuel (← enter room 2) (some flags) false
    readClosing
    closeGroup number body
    return ⟨group number body, .other⟩

/-- The body of a group that is not remembered and its closing parenthesis. -/
def readBody (fuel room : Nat) (flags : Flags) : Reader Pattern :=
  match fuel with
  | 0 => throw .malformed
  | fuel + 1 => do
    let body ← readAlternatives fuel (← enter room 2) (some flags) false
    readClosing
    return body

/-- An assertion about what follows or precedes. -/
def readLook (fuel room : Nat) (flags : Flags) (preceding holds : Bool) :
    Reader Piece :=
  match fuel with
  | 0 => throw .malformed
  | fuel + 1 => do
    let outer := (← get).openedBefore
    if preceding && outer.isNone then
      modify fun draft => { draft with openedBefore := some draft.count }
    let body ← readBody fuel room flags
    modify fun draft => { draft with openedBefore := outer }
    if !preceding then return ⟨look none holds body, .other⟩
    let (least, most) := body.width (← get).widths
    if most != some least || countLimit < least then
      modify fun draft => { draft with flawed := true }
    return ⟨look (some least) holds body, .other⟩

/-- A choice by whether a group has matched. -/
def readChoice (fuel room : Nat) (flags : Flags) : Reader Piece :=
  match fuel with
  | 0 => throw .malformed
  | fuel + 1 => do
    let number ← readAsked
    let inner ← enter room 1
    let yes ← readSequence fuel inner flags false []
    let no ←
      if ← accept '|' then readSequence fuel inner flags false []
      else pure nothing
    readClosing
    return ⟨given number yes no, .other⟩

/-- What follows an opening parenthesis and a question mark, and the rest of
the sequence. -/
def readSpecial (fuel room : Nat) (flags : Flags) (leading : Bool)
    (pieces : List Piece) : Reader Pattern :=
  match fuel with
  | 0 => throw .malformed
  | fuel + 1 => do
    let goOn (piece : Piece) : Reader Pattern :=
      readSequence fuel room flags leading (piece :: pieces)
    let sign ← demand
    if sign.escaped then throw .malformed
    match sign.char with
    | 'P' =>
      if ← accept '<' then do
        goOn (← readGroup fuel room flags (some (← takeName '>')))
      else if ← accept '=' then do
        let name ← takeName ')'
        match (← get).names.lookup name with
        | some number => do goOn (← readAgain flags number)
        | none => throw .malformed
      else throw .malformed
    | ':' => do goOn ⟨← readBody fuel room flags, .other⟩
    | '>' => do goOn ⟨first (← readBody fuel room flags), .other⟩
    | '#' => do
      if ← skipPast ')' then readSequence fuel room flags leading pieces
      else throw .malformed
    | '=' => do goOn (← readLook fuel room flags false true)
    | '!' => do goOn (← readLook fuel room flags false false)
    | '<' => do
      let kind ← demand
      if kind.is '=' then goOn (← readLook fuel room flags true true)
      else if kind.is '!' then goOn (← readLook fuel room flags true false)
      else throw .malformed
    | '(' => do goOn (← readChoice fuel room flags)
    | _ => do
      let (on, off) ← readFlags sign
      let switched := on.foldl (·.set · true) flags
      match off with
      | none => do
        if !leading || !pieces.isEmpty then throw .malformed
        modify fun draft =>
          { draft with flags := switched, letters := on ++ draft.letters }
        readSequence fuel room switched leading pieces
      | some off => do
        let inner := off.foldl (·.set · false) switched
        goOn ⟨← readBody fuel room inner, .other⟩

end

/-- The pattern that a whole text writes. -/
def readWhole (fuel : Nat) : Reader Pattern := do
  goTo (← get).signs
  let pattern ← readAlternatives fuel nestingRoom none true
  let draft ← get
  if draft.letters.contains 'a' && draft.letters.contains 'u' then
    throw .mixedAlphabets
  if !draft.signs.isEmpty || draft.flawed
      || draft.used.any (draft.count < ·) then
    throw .malformed
  return pattern.keeping draft.used

/-- The pattern that a text writes. -/
def ofText (text : List Char) : Except PatternError Pattern :=
  let (signs, cut) := signsOf text
  (readWhole (8 * text.length + 8)).run' { signs, cut }

end Pattern

/-- The numbers of the lines, counted from one, that one of the patterns
matches in. -/
def ignoredLines (patterns : List Pattern) (text : List Char) : List Nat :=
  if patterns.isEmpty then []
  else
    (Text.splitLines text).zipIdx.filterMap fun (line, i) =>
      if patterns.any (·.matchesIn line) then some (i + 1) else none

end Marginalia
