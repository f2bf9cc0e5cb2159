/-
The tokens of a document in YAML.

Blocks are told by indentation: a token opens a sequence or a mapping where
the indentation grows, and others close them where it shrinks. Whether a
node is a key shows only at its colon, so every node that may be one is
remembered together with its place among the tokens, where the marks of a
key are put in when the colon comes. A key stands on one line and its colon
not too far off; a node that has to be a key and is none is an error.
-/
import Marginalia.Yaml.Scalar

namespace Marginalia.Yaml

/-- A line that says how a document is to be read. -/
inductive Directive where
  | version (major : Nat)
  /-- What a handle of tags stands for. -/
  | tags (handle stem : List Char)
  | other
  deriving DecidableEq, Repr

/-- A token of a document. -/
inductive Token where
  | directive (directive : Directive)
  | documentStart
  | documentEnd
  | sequence
  | mapping
  | blockEnd
  | flowSequence
  | flowSequenceEnd
  | flowMapping
  | flowMappingEnd
  /-- The dash of an entry. -/
  | entry
  /-- A comma. -/
  | comma
  | key
  | value
  | reference (name : List Char)
  | anchor (name : List Char)
  /-- A tag; without a handle the tag is given in full. -/
  | tag (handle : Option (List Char)) (suffix : List Char)
  | scalar (text : List Char) (plain : Bool)
  deriving DecidableEq, Repr

/-- A node that may turn out to be a key. -/
structure PendingKey where
  /-- Its place among the tokens. -/
  place : Nat
  /-- It has to be a key, since it stands at the column of a mapping's keys. -/
  required : Bool
  start : Cursor

/-- How far a document has been cut into tokens. -/
structure TokenState where
  cursor : Cursor
  tokens : Array Token := #[]
  /-- How many brackets are open. -/
  flow : Nat := 0
  /-- The column of the innermost block, and of those around it. -/
  indent : Int := -1
  outer : List Int := []
  /-- A key may start here. -/
  keysAllowed : Bool := true
  /-- The last node that may be a key, for each number of open brackets. -/
  pending : List (Nat × PendingKey) := []

namespace TokenState

-- ============================================================== keys

/-- The furthest that the colon may be from the start of its key. -/
def longestKey : Nat := 1024

/-- Whether a node can no longer be a key. -/
def isStale (state : TokenState) (key : PendingKey) : Bool :=
  key.start.line != state.cursor.line
    || longestKey < state.cursor.index - key.start.index

/-- Forgets the nodes that can no longer be keys. -/
def dropStale (state : TokenState) : Except ReadError TokenState :=
  if state.pending.any fun (_, key) => state.isStale key && key.required then
    throw .malformed
  else
    return { state with
      pending := state.pending.filter fun (_, key) => !state.isStale key }

/-- Forgets the node that may be a key among the open brackets. -/
def dropKey (state : TokenState) : Except ReadError TokenState :=
  match state.pending.lookup state.flow with
  | none => return state
  | some key =>
    if key.required then throw .malformed
    else
      return { state with
        pending := state.pending.filter (·.1 != state.flow) }

/-- Remembers that a node that starts here may be a key. -/
def saveKey (state : TokenState) : Except ReadError TokenState := do
  if !state.keysAllowed then return state
  let required := state.flow == 0 && state.indent == state.cursor.column
  let state ← state.dropKey
  let key : PendingKey := ⟨state.tokens.size, required, state.cursor⟩
  return { state with pending := (state.flow, key) :: state.pending }

-- ============================================================ blocks

/-- One more token. -/
def push (state : TokenState) (token : Token) : TokenState :=
  { state with tokens := state.tokens.push token }

/-- Closes the blocks that are further in than a column. -/
def unwind (column : Int) : Nat → TokenState → TokenState
  | 0, state => state
  | fuel + 1, state =>
    if state.flow == 0 && column < state.indent then
      let (indent, outer) :=
        match state.outer with
        | indent :: outer => (indent, outer)
        | [] => (-1, [])
      unwind column fuel ({ state with indent, outer }.push .blockEnd)
    else state

/-- Closes the blocks that are further in than a column. -/
def closeTo (state : TokenState) (column : Int) : TokenState :=
  state.unwind column (state.outer.length + 1)

/-- Whether a block at the column would be further in than the innermost. -/
def opensAt (state : TokenState) (column : Nat) : Bool := state.indent < column

/-- The column of a new block. -/
def enter (state : TokenState) (column : Nat) : TokenState :=
  { state with indent := column, outer := state.indent :: state.outer }

/-- Opens a block at the cursor, if it is further in than the innermost. -/
def openHere (state : TokenState) (token : Token) : TokenState :=
  if state.opensAt state.cursor.column then
    (state.enter state.cursor.column).push token
  else state

/-- Passes over characters that make up a token. -/
def advance (state : TokenState) (n : Nat) (token : Token) : TokenState :=
  { state with cursor := state.cursor.forward n }.push token

-- ========================================================== brackets

/-- An opening bracket. -/
def openFlow (state : TokenState) (token : Token) :
    Except ReadError TokenState := do
  let state ← state.saveKey
  let opened := { state with flow := state.flow + 1, keysAllowed := true }
  return opened.advance 1 token

/-- A closing bracket. -/
def closeFlow (state : TokenState) (token : Token) :
    Except ReadError TokenState := do
  if state.flow == 0 then throw .malformed
  let state ← state.dropKey
  let closed := { state with flow := state.flow - 1, keysAllowed := false }
  return closed.advance 1 token

/-- A comma. -/
def putComma (state : TokenState) : Except ReadError TokenState := do
  let state ← state.dropKey
  return { state with keysAllowed := true }.advance 1 .comma

-- ======================================================= block marks

/-- The dash of an entry. -/
def putEntry (state : TokenState) : Except ReadError TokenState := do
  if state.flow == 0 && !state.keysAllowed then throw .malformed
  let state := if state.flow == 0 then state.openHere .sequence else state
  let state ← { state with keysAllowed := true }.dropKey
  return state.advance 1 .entry

/-- The question mark of a key. -/
def putKey (state : TokenState) : Except ReadError TokenState := do
  if state.flow == 0 && !state.keysAllowed then throw .malformed
  let state := if state.flow == 0 then state.openHere .mapping else state
  let state ← { state with keysAllowed := state.flow == 0 }.dropKey
  return state.advance 1 .key

/-- The colon after a key that shows only now: the marks of the key are put in
where the node starts. -/
def putLateKey (state : TokenState) (key : PendingKey) : TokenState :=
  let opens := state.flow == 0 && state.opensAt key.start.column
  let marks := if opens then #[Token.mapping, .key] else #[.key]
  let entered := if opens then state.enter key.start.column else state
  { entered with
    tokens :=
      state.tokens.take key.place ++ marks ++ state.tokens.drop key.place
    pending := state.pending.filter (·.1 != state.flow)
    keysAllowed := false }

/-- A colon. -/
def putValue (state : TokenState) : Except ReadError TokenState := do
  match state.pending.lookup state.flow with
  | some key => return (state.putLateKey key).advance 1 .value
  | none => do
    if state.flow == 0 && !state.keysAllowed then throw .malformed
    let state := if state.flow == 0 then state.openHere .mapping else state
    let state ← { state with keysAllowed := state.flow == 0 }.dropKey
    return state.advance 1 .value

-- ========================================================= documents

/-- Closes all blocks, before a directive or a mark of a document. -/
def closeAll (state : TokenState) : Except ReadError TokenState := do
  let state ← (state.closeTo (-1)).dropKey
  return { state with keysAllowed := false }

/-- The mark of a document's start or end. -/
def putMarks (state : TokenState) (token : Token) :
    Except ReadError TokenState := do
  return (← state.closeAll).advance 3 token

end TokenState

-- ============================================================= names

/-- Whether a character may stand in a name. -/
def isNameChar (c : Char) : Bool := c.isAlphanum || c == '-' || c == '_'

/-- The characters from the cursor on that satisfy `p`, at least one, and the
place after them. -/
def takeRun (p : Char → Bool) (cursor : Cursor) :
    Except ReadError (List Char × Cursor) :=
  let run := cursor.rest.takeWhile p
  if run.isEmpty then throw .malformed
  else return (run, cursor.forward run.length)

/-- The name of an anchor or alias. -/
def readName (cursor : Cursor) : Except ReadError (List Char × Cursor) := do
  let (name, stop) ← takeRun isNameChar cursor
  let ends (c : Char) : Bool :=
    isGap c || ['?', ':', ',', ']', '\x7d', '%', '@', '\x60'].contains c
  if stop.rest.head?.all ends then return (name, stop) else throw .malformed

-- ============================================================== tags

/-- The bytes that a run of percent signs with two hexadecimal digits each
writes, and the text after them. -/
def percentBytes : List Char → Except ReadError (List UInt8 × List Char)
  | '%' :: a :: b :: cs =>
    match Text.hexValue? a, Text.hexValue? b with
    | some high, some low => do
      let (bytes, rest) ← percentBytes cs
      return (UInt8.ofNat (16 * high + low) :: bytes, rest)
    | _, _ => throw .malformed
  | '%' :: _ => throw .malformed
  | cs => return ([], cs)

/-- Whether a character may stand in a tag. -/
def isTagChar (c : Char) : Bool :=
  c.isAlphanum || [';', '/', '?', ':', '@', '&', '=', '+', '$', ',', '_', '.',
    '!', '~', '*', '\x27', '(', ')', '[', ']', '-'].contains c

/-- The text of a tag, after `passed` in reverse. -/
def readTagText : Nat → List Char → Cursor →
    Except ReadError (List Char × Cursor)
  | 0, _, _ => throw .malformed
  | fuel + 1, passed, cursor =>
    match cursor.rest with
    | '%' :: _ => do
      let (bytes, rest) ← percentBytes cursor.rest
      match String.fromUTF8? ⟨bytes.toArray⟩ with
      | some text =>
        readTagText fuel (text.toList.reverse ++ passed)
          (cursor.forward (cursor.rest.length - rest.length))
      | none => throw .malformed
    | c :: _ =>
      if isTagChar c then readTagText fuel (c :: passed) cursor.next
      else if passed.isEmpty then throw .malformed
      else return (passed.reverse, cursor)
    | [] => if passed.isEmpty then throw .malformed
      else return (passed.reverse, cursor)

/-- The text of a tag. -/
def readTagSuffix (cursor : Cursor) : Except ReadError (List Char × Cursor) :=
  readTagText (cursor.rest.length + 1) [] cursor

/-- A handle of tags: an exclamation mark alone or a name between two. -/
def readHandle (cursor : Cursor) : Except ReadError (List Char × Cursor) := do
  if !cursor.startsWith '!' then throw .malformed
  let name := cursor.next.rest.takeWhile isNameChar
  let stop := cursor.next.forward name.length
  if stop.startsWith '!' then return ('!' :: name ++ ['!'], stop.next)
  else if cursor.next.startsWith ' ' then return (['!'], cursor.next)
  else throw .malformed

/-- The tag whose exclamation mark is next. -/
def readTag (cursor : Cursor) : Except ReadError (Token × Cursor) := do
  let (token, stop) ←
    match cursor.next.rest with
    | '<' :: _ => do
      let (suffix, stop) ← readTagSuffix (cursor.forward 2)
      if !stop.startsWith '>' then throw .malformed
      pure (Token.tag none suffix, stop.next)
    | rest => do
      if startsWithGap rest then pure (Token.tag none ['!'], cursor.next)
      else
        let word := rest.takeWhile fun c => c != ' ' && !isBreak c
        let (handle, after) ←
          if word.contains '!' then readHandle cursor
          else pure (['!'], cursor.next)
        let (suffix, stop) ← readTagSuffix after
        pure (Token.tag (some handle) suffix, stop)
  if stop.atSpace then return (token, stop) else throw .malformed

-- ======================================================== directives

/-- A number of a version. -/
def readVersionNumber (cursor : Cursor) : Except ReadError (Nat × Cursor) := do
  let (digits, stop) ← takeRun Char.isDigit cursor
  return (Text.digitsValue digits, stop)

/-- What the directive of a name says, from the place after the name on. -/
def readDirectiveBody (name : List Char) (cursor : Cursor) :
    Except ReadError (Directive × Cursor) := do
  if name == ['Y', 'A', 'M', 'L'] then
    let (major, dot) ← readVersionNumber cursor.skipSpaces
    if !dot.startsWith '.' then throw .malformed
    let (_, stop) ← readVersionNumber dot.next
    if stop.atSpace then return (.version major, stop) else throw .malformed
  else if name == ['T', 'A', 'G'] then
    let (handle, gap) ← readHandle cursor.skipSpaces
    if !gap.startsWith ' ' then throw .malformed
    let (stem, stop) ← readTagSuffix gap.skipSpaces
    if stop.atSpace then return (.tags handle stem, stop) else throw .malformed
  else return (.other, cursor.skipWhile (!isBreak ·))

/-- The directive whose percent sign is next, with the rest of its line. -/
def readDirective (cursor : Cursor) :
    Except ReadError (Directive × Cursor) := do
  let (name, stop) ← takeRun isNameChar cursor.next
  if !stop.atSpace then throw .malformed
  let (directive, stop) ← readDirectiveBody name stop
  let lineEnd := stop.skipComment
  if lineEnd.atLineEnd then return (directive, lineEnd.next)
  else throw .malformed

-- ============================================================= steps

namespace TokenState

/-- Passes over spaces, comments and line ends. After a line end a key may
start, unless brackets are open. -/
def skipBlank : Nat → TokenState → TokenState
  | 0, state => state
  | fuel + 1, state =>
    let stop := state.cursor.skipComment
    if stop.rest.head?.any isBreak then
      skipBlank fuel { state with
        cursor := stop.next
        keysAllowed := state.keysAllowed || state.flow == 0 }
    else { state with cursor := stop }

/-- A scalar that was read up to a place. -/
def putScalar (state : TokenState) (text : List Char) (plain : Bool)
    (stop : Cursor) (keysAllowed : Bool) : TokenState :=
  { state with cursor := stop, keysAllowed }.push (.scalar text plain)

/-- A scalar between quotes. -/
def putQuoted (state : TokenState) (quote : Char) :
    Except ReadError TokenState := do
  let state ← state.saveKey
  let (text, stop) ←
    readQuoted quote (state.cursor.rest.length + 1) [] state.cursor.next
  return state.putScalar text false stop false

/-- A block of lines. -/
def putBlock (state : TokenState) (folded : Bool) :
    Except ReadError TokenState := do
  let state ← { state with keysAllowed := true }.dropKey
  let (text, stop) ← readBlock folded state.indent state.cursor.next
  return state.putScalar text false stop true

/-- A plain scalar. -/
def putPlain (state : TokenState) : Except ReadError TokenState := do
  let state ← state.saveKey
  let plain := readPlain (state.flow != 0) (state.indent + 1) state.cursor
  return state.putScalar plain.text true plain.stop plain.broken

/-- A token that may start a key and was read up to a place. -/
def putProperty (state : TokenState)
    (read : Cursor → Except ReadError (Token × Cursor)) :
    Except ReadError TokenState := do
  let state ← state.saveKey
  let (token, stop) ← read state.cursor
  return { state with cursor := stop, keysAllowed := false }.push token

/-- The token that starts with the given character, `rest` being what follows
it. -/
def put (state : TokenState) (c : Char) (rest : List Char) :
    Except ReadError TokenState :=
  let flow := state.flow != 0
  let apart := startsWithGap rest
  let named (make : List Char → Token) (cursor : Cursor) :
      Except ReadError (Token × Cursor) := do
    let (name, stop) ← readName cursor.next
    return (make name, stop)
  if c == '%' && state.cursor.column == 0 then do
    let state ← state.closeAll
    let (directive, stop) ← readDirective state.cursor
    return { state with cursor := stop }.push (.directive directive)
  else if state.cursor.atMarks '-' then state.putMarks .documentStart
  else if state.cursor.atMarks '.' then state.putMarks .documentEnd
  else if c == '[' then state.openFlow .flowSequence
  else if c == '\x7b' then state.openFlow .flowMapping
  else if c == ']' then state.closeFlow .flowSequenceEnd
  else if c == '\x7d' then state.closeFlow .flowMappingEnd
  else if c == ',' then state.putComma
  else if c == '-' && apart then state.putEntry
  else if c == '?' && (flow || apart) then state.putKey
  else if c == ':' && (flow || apart) then state.putValue
  else if c == '*' then state.putProperty (named .reference)
  else if c == '&' then state.putProperty (named .anchor)
  else if c == '!' then state.putProperty readTag
  else if c == '|' && !flow then state.putBlock false
  else if c == '>' && !flow then state.putBlock true
  else if c == '\x27' || c == '"' then state.putQuoted c
  else if startsPlain flow (c :: rest) then state.putPlain
  else throw .malformed

/-- The next token, with the ends of blocks before it; none at the end of the
document. -/
def step (state : TokenState) : Except ReadError (Option TokenState) := do
  let state ← (state.skipBlank (state.cursor.rest.length + 1)).dropStale
  let state := state.closeTo state.cursor.column
  match state.cursor.rest with
  | [] => return none
  | c :: rest => return some (← state.put c rest)

/-- All tokens from here on, and what ended the reading, if it was not the end
of the text. -/
def run : Nat → TokenState → List Token × Option ReadError
  | 0, state => (state.tokens.toList, some .malformed)
  | fuel + 1, state =>
    match state.step with
    | .error error => (state.tokens.toList, some error)
    | .ok (some state) => run fuel state
    | .ok none =>
      match ((state.skipBlank (state.cursor.rest.length + 1)).closeTo
          (-1)).dropKey with
      | .ok state => (state.tokens.toList, none)
      | .error error => (state.tokens.toList, some error)

end TokenState

/-- The tokens of a text, and what ended the reading, if it was not the end of
the text. -/
def tokensOf (text : List Char) : List Token × Option ReadError :=
  let cursor : Cursor := { rest := text }
  let start := if cursor.startsWith '\ufeff' then cursor.next else cursor
  ({ cursor := start } : TokenState).run (text.length + 2)

end Marginalia.Yaml
