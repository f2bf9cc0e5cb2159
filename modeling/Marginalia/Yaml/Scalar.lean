/-
Reading scalars of YAML: plain ones, those between quotes, and blocks of
lines.

A plain or quoted scalar may go on over several lines. A single line end
inside it is a space; of several, the first is dropped and the others stay.
In a block of lines the line ends stay, or are folded in the same way.
-/
import Marginalia.Value.Json
import Marginalia.Yaml.Cursor

namespace Marginalia.Yaml

-- ========================================================= line ends

/-- A line end as it stays in a text. -/
def keptBreak (c : Char) : Char :=
  if c == '\u2028' || c == '\u2029' then c else '\n'

/-- What a run of line ends inside a scalar comes to. -/
def foldBreaks : List Char → List Char
  | [] => []
  | first :: more =>
    if keptBreak first != '\n' then keptBreak first :: more.map keptBreak
    else if more.isEmpty then [' ']
    else more.map keptBreak

/-- The line ends in the blanks from the cursor on, the place after them, and
whether that is where a document starts or ends. -/
def readBreaks (blank : Char → Bool) : Nat → Cursor → List Char × Cursor × Bool
  | 0, cursor => ([], cursor, false)
  | fuel + 1, cursor =>
    match cursor.rest with
    | c :: _ =>
      if isBreak c then
        if cursor.next.atBoundary then ([c], cursor.next, true)
        else
          let (breaks, stop, boundary) := readBreaks blank fuel cursor.next
          (c :: breaks, stop, boundary)
      else if blank c then readBreaks blank fuel cursor.next
      else ([], cursor, false)
    | [] => ([], cursor, false)

/-- Blanks inside a scalar. -/
structure Gap where
  /-- What they come to in the text. -/
  text : List Char
  /-- The place after them. -/
  stop : Cursor
  /-- A line ends in them. -/
  broken : Bool
  /-- A document starts or ends after them. -/
  boundary : Bool

/-- The blanks from the cursor on. -/
def readGap (blank : Char → Bool) (cursor : Cursor) : Gap :=
  let blanks := cursor.rest.takeWhile blank
  let stop := cursor.forward blanks.length
  if stop.rest.head?.any isBreak then
    let (breaks, after, boundary) :=
      readBreaks blank (stop.rest.length + 1) stop
    ⟨foldBreaks breaks, after, true, boundary⟩
  else ⟨blanks, stop, false, false⟩

-- ============================================================= plain

/-- The characters that mean something inside brackets. -/
def flowMarks : List Char := [',', '[', ']', '\x7b', '\x7d']

/-- Characters that no plain scalar starts with. -/
def startMarks : List Char :=
  ['-', '?', ':', ',', '[', ']', '\x7b', '\x7d', '#', '&', '*', '!', '|', '>',
   '\x27', '"', '%', '@', '\x60']

/-- Whether a plain scalar starts here. A dash does where it is no entry, and
outside brackets a colon or a question mark where no gap follows. -/
def startsPlain (flow : Bool) : List Char → Bool
  | [] => false
  | c :: cs =>
    (!isGap c && !startMarks.contains c)
      || (!startsWithGap cs && (c == '-' || (!flow && (c == '?' || c == ':'))))

/-- Whether a colon ends a plain scalar, going by what follows it. -/
def colonEnds (flow : Bool) (after : List Char) : Bool :=
  startsWithGap after || (flow && after.head?.any flowMarks.contains)

/-- The characters of a plain scalar up to a gap. -/
def plainChunk (flow : Bool) : List Char → List Char
  | [] => []
  | c :: cs =>
    if isGap c || (c == ':' && colonEnds flow cs)
        || (flow && (c == '?' || flowMarks.contains c)) then []
    else c :: plainChunk flow cs

/-- A plain scalar. -/
structure Plain where
  text : List Char
  /-- The place after it and the blanks that follow it. -/
  stop : Cursor
  /-- A line ends in the blanks that follow it. -/
  broken : Bool

/-- The rest of a plain scalar after some of it: as long as a gap is followed
by more of it, which outside brackets stands no further left than `floor`. -/
def plainRest (flow : Bool) (floor : Int) : Nat → Cursor → Plain
  | 0, cursor => ⟨[], cursor, false⟩
  | fuel + 1, cursor =>
    let gap := readGap (· == ' ') cursor
    let chunk := plainChunk flow gap.stop.rest
    if gap.boundary || gap.text.isEmpty || chunk.isEmpty
        || gap.stop.startsWith '#'
        || (!flow && gap.stop.column < floor) then ⟨[], gap.stop, gap.broken⟩
    else
      let more := plainRest flow floor fuel (gap.stop.forward chunk.length)
      { more with text := gap.text ++ chunk ++ more.text }

/-- The plain scalar that starts here. -/
def readPlain (flow : Bool) (floor : Int) (cursor : Cursor) : Plain :=
  let chunk := plainChunk flow cursor.rest
  let more :=
    plainRest flow floor (cursor.rest.length + 1) (cursor.forward chunk.length)
  { more with text := chunk ++ more.text }

-- ============================================================ quoted

/-- The character that a letter after a backslash stands for. -/
def escaped? : Char → Option Char
  | '0' => some '\x00'
  | 'a' => some '\x07'
  | 'b' => some '\x08'
  | 't' => some '\t'
  | '\t' => some '\t'
  | 'n' => some '\n'
  | 'v' => some '\x0b'
  | 'f' => some '\x0c'
  | 'r' => some '\r'
  | 'e' => some '\x1b'
  | ' ' => some ' '
  | '"' => some '"'
  | '\\' => some '\\'
  | '/' => some '/'
  | 'N' => some '\x85'
  | '_' => some '\xa0'
  | 'L' => some '\u2028'
  | 'P' => some '\u2029'
  | _ => none

/-- The number of digits in the code after a letter after a backslash. -/
def codeWidth? : Char → Option Nat
  | 'x' => some 2
  | 'u' => some 4
  | 'U' => some 8
  | _ => none

/-- The character of a code point. A unit that is only half a character is
replaced. -/
def charOfCode (n : Nat) : Except ReadError Char :=
  if 0x80000000 ≤ n then throw .codeTooLarge
  else if 0x110000 ≤ n then throw .noCharacter
  else if 0xd800 ≤ n && n < 0xe000 then return '\ufffd'
  else return Char.ofNat n

/-- The character whose code the given number of hexadecimal digits writes. -/
def codeChar (width : Nat) (cs : List Char) : Except ReadError Char :=
  let digits := cs.take width
  if digits.length < width
      || digits.any (fun c => (Text.hexValue? c).isNone) then
    throw .malformed
  else charOfCode (Text.digitsIn 16 digits)

/-- The character that two escapes of half a character each make; the text is
past the first backslash. -/
def pairedChar? : List Char → Option Char
  | 'u' :: cs =>
    match Json.readUnit cs with
    | some (first, '\\' :: 'u' :: more) =>
      (Json.readUnit more).bind fun (second, _) => Json.paired? first second
    | _ => none
  | _ => none

/-- White space between words of a quoted scalar. -/
def isQuotedBlank (c : Char) : Bool := c == ' ' || c == '\t'

/-- What an escape stands for, and the place after it; the cursor is past the
backslash. A backslash at the end of a line joins it to the next. -/
def readEscape (cursor : Cursor) : Except ReadError (List Char × Cursor) :=
  match cursor.rest with
  | [] => throw .malformed
  | c :: cs =>
    match escaped? c, codeWidth? c with
    | some d, _ => return ([d], cursor.next)
    | none, some width =>
      match pairedChar? (c :: cs) with
      | some d => return ([d], cursor.forward 11)
      | none => do return ([← codeChar width cs], cursor.forward (width + 1))
    | none, none =>
      if isBreak c && !cursor.next.atBoundary then
        let (breaks, stop, boundary) :=
          readBreaks isQuotedBlank (cs.length + 1) cursor.next
        if boundary then throw .malformed
        else return (breaks.map keptBreak, stop)
      else throw .malformed

/-- The text up to the closing quote, after `passed` in reverse, and the place
after it. -/
def readQuoted (quote : Char) :
    Nat → List Char → Cursor → Except ReadError (List Char × Cursor)
  | 0, _, _ => throw .malformed
  | fuel + 1, passed, cursor =>
    match cursor.rest with
    | [] => throw .malformed
    | c :: cs =>
      if c == quote then
        if quote == '\x27' && cs.head? == some quote then
          readQuoted quote fuel (quote :: passed) (cursor.forward 2)
        else return (passed.reverse, cursor.next)
      else if c == '\\' && quote == '"' then do
        let (chars, after) ← readEscape cursor.next
        readQuoted quote fuel (chars.reverse ++ passed) after
      else if isGap c then
        let gap := readGap isQuotedBlank cursor
        if gap.boundary then throw .malformed
        else readQuoted quote fuel (gap.text.reverse ++ passed) gap.stop
      else readQuoted quote fuel (c :: passed) cursor.next

-- ============================================================ blocks

/-- What becomes of the line ends at the end of a block. -/
inductive Chomping where
  /-- One stays. -/
  | clip
  /-- None stays. -/
  | strip
  /-- All stay. -/
  | keep
  deriving DecidableEq, Repr

/-- The chomping that a sign stands for. -/
def chomping? : Char → Option Chomping
  | '+' => some .keep
  | '-' => some .strip
  | _ => none

/-- The chomping and the indentation that the head of a block gives, in either
order, and the place after them. -/
def readBlockHead (cursor : Cursor) :
    Except ReadError (Chomping × Option Nat × Cursor) := do
  let sign (cursor : Cursor) : Option Chomping × Cursor :=
    match cursor.rest.head?.bind chomping? with
    | some chomping => (some chomping, cursor.next)
    | none => (none, cursor)
  let digit (cursor : Cursor) : Option Nat × Cursor :=
    match cursor.rest with
    | c :: _ => if c.isDigit then (some (c.toNat - '0'.toNat), cursor.next)
      else (none, cursor)
    | [] => (none, cursor)
  let (before, afterSign) := sign cursor
  let (indent, afterDigit) := digit afterSign
  let (after, stop) :=
    if before.isNone && indent.isSome then sign afterDigit
    else (none, afterDigit)
  if indent == some 0 || !stop.atSpace then throw .malformed
  let body := stop.skipComment
  if !body.atLineEnd then throw .malformed
  return ((before.or after).getD .clip, indent, body.next)

/-- The line ends of the empty lines a block starts with, the deepest column of
their spaces, and the place after them. -/
def readLeading : Nat → Nat → List Char → Cursor → List Char × Nat × Cursor
  | 0, deepest, breaks, cursor => (breaks.reverse, deepest, cursor)
  | fuel + 1, deepest, breaks, cursor =>
    match cursor.rest with
    | c :: _ =>
      if isBreak c then readLeading fuel deepest (keptBreak c :: breaks)
          cursor.next
      else if c == ' ' then
        readLeading fuel (max deepest cursor.next.column) breaks cursor.next
      else (breaks.reverse, deepest, cursor)
    | [] => (breaks.reverse, deepest, cursor)

/-- The place after the spaces up to a column. -/
def skipIndent (indent : Nat) (cursor : Cursor) : Cursor :=
  cursor.forward
    ((cursor.rest.takeWhile (· == ' ')).length.min (indent - cursor.column))

/-- The line ends of empty lines, and the place after the indentation of the
next line. -/
def readEmptyLines (indent : Nat) :
    Nat → List Char → Cursor → List Char × Cursor
  | 0, breaks, cursor => (breaks.reverse, cursor)
  | fuel + 1, breaks, cursor =>
    let stop := skipIndent indent cursor
    match stop.rest with
    | c :: _ =>
      if isBreak c then readEmptyLines indent fuel (keptBreak c :: breaks)
          stop.next
      else (breaks.reverse, stop)
    | [] => (breaks.reverse, stop)

/-- The lines of a block after `passed` in reverse, from the place after the
indentation of the next line on; `breaks` are the line ends before it. Gives
the text, the last line end, the line ends after that and the place after
them. -/
def readLines (folded : Bool) (indent : Nat) :
    Nat → List Char → List Char → Cursor →
    List Char × List Char × List Char × Cursor
  | 0, passed, breaks, cursor => (passed.reverse, [], breaks, cursor)
  | fuel + 1, passed, breaks, cursor =>
    if cursor.column != indent || cursor.atEnd then
      (passed.reverse, [], breaks, cursor)
    else
      let flush (cursor : Cursor) : Bool := !cursor.rest.head?.any isQuotedBlank
      let line := cursor.rest.takeWhile (!isBreak ·)
      let lineEnd := cursor.forward line.length
      let lineBreak := (lineEnd.rest.take 1).map keptBreak
      let (following, stop) :=
        readEmptyLines indent (lineEnd.rest.length + 1) [] lineEnd.next
      let passed := line.reverse ++ breaks.reverse ++ passed
      if stop.column == indent && !stop.atEnd then
        let joint :=
          if folded && lineBreak == ['\n'] && flush cursor && flush stop then
            if following.isEmpty then [' '] else []
          else lineBreak
        readLines folded indent fuel (joint ++ passed) following stop
      else (passed.reverse, lineBreak, following, stop)

/-- The block of lines whose sign was read, in a collection at column
`outer`. -/
def readBlock (folded : Bool) (outer : Int) (cursor : Cursor) :
    Except ReadError (List Char × Cursor) := do
  let (chomping, given, body) ← readBlockHead cursor
  let least := max (outer + 1) 1
  let fuel := body.rest.length + 1
  let (indent, breaks, start) :=
    match given with
    | some n =>
      let indent := (least + n - 1).toNat
      let (breaks, start) := readEmptyLines indent fuel [] body
      (indent, breaks, start)
    | none =>
      let (breaks, deepest, start) := readLeading fuel 0 [] body
      (max least.toNat deepest, breaks, start)
  let (text, lineBreak, trailing, stop) :=
    readLines folded indent fuel [] breaks start
  return (match chomping with
    | .strip => text
    | .clip => text ++ lineBreak
    | .keep => text ++ lineBreak ++ trailing, stop)

end Marginalia.Yaml
