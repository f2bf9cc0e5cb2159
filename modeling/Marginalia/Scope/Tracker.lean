/-
Tracking scopes through a run of tokens.

The tracker holds the open scopes and the header of the statement being
read. A brace opens a scope, and the header in front of it says of what
kind; the closing brace closes it again. The file's own scope is not on
the stack, so it can never be closed.

A body inside the parentheses of a header, such as a callback among
arguments, is part of that header: closing it takes the header up where
it was left. Any other body ends its statement.

In dialects where a line break may end a statement, a token on a new line
ends it unless the header clearly goes on.
-/
import Marginalia.Header.Analysis
import Marginalia.Notice
import Marginalia.Scope.Opening
import Marginalia.Text.Lines

namespace Marginalia

/-- An open scope, and the header it interrupted with its open parentheses. -/
structure Level where
  opening : Opening
  header : List Token
  parens : Nat
  deriving DecidableEq, Repr

/-- The scopes and the statement being read. -/
structure Tracker where
  /-- The open scopes inside the file, innermost first. -/
  levels : List Level := []
  /-- The tokens of the statement being read. -/
  header : List Token := []
  /-- The parentheses and brackets open in the statement. -/
  parens : Nat := 0
  /-- The last token read. -/
  previous : Option Token := none
  /-- The problems met so far. -/
  diagnostics : List Diagnostic := []
  deriving DecidableEq, Repr

/-- What reading a token changes and reports. -/
structure Tracked where
  tracker : Tracker
  events : List ScopeEvent := []
  notices : List Notice := []

namespace Tracker

-- ============================================================= views

/-- The open scopes, the file included. -/
def depth (tracker : Tracker) : Nat := tracker.levels.length + 1

/-- The open scopes, the file first. -/
def frames (tracker : Tracker) : List Frame :=
  .file :: tracker.levels.reverse.map (·.opening.frame)

/-- The kinds and names of the open scopes, the file first. -/
def path (tracker : Tracker) : List ScopeRef := tracker.frames.map (·.ref)

/-- The declaration of the innermost scope that has one. -/
def enclosingSite (tracker : Tracker) : Option Site :=
  tracker.levels.findSome? (·.opening.site?)

/-- The kind of the innermost scope that is no block. -/
def enclosingKind (tracker : Tracker) : ScopeKind :=
  (tracker.enclosingSite.map (·.kind.scopeKind)).getD .file

-- =========================================================== headers

/-- The most tokens of a statement that are kept; older ones are dropped. -/
def maxHeaderTokens : Nat := 1024

/-- The header with one more token. -/
def append (tracker : Tracker) (token : Token) : Tracker :=
  let header := tracker.header ++ [token]
  { tracker with header := header.drop (header.length - maxHeaderTokens) }

/-- The declaration that the header in front of a terminator makes. -/
def declared? (rules : Rules) (lines : Text.Lines) (tracker : Tracker)
    (terminator : Terminator) : Option Site :=
  (rules.analyzeHeader terminator tracker.enclosingKind tracker.header).map
    fun found =>
      { kind := found.declarationKind tracker.enclosingKind
        name := found.name
        start := found.start
        line := lines.lineOf found.start
        path := tracker.path }

/-- Tokens after which a statement goes on in the next line. -/
def continuesAfter : List String :=
  ["=", ",", "(", "[", ".", "?.", ":", "::", "->", "+", "-", "*", "/", "%",
   "&&", "||", "<", "?", "@", "!"]

/-- Tokens that take up the statement of the line before. -/
def continuesBefore : List String :=
  [".", "?.", ":", "\x7b", "=", "->", ")", "]", "&&", "||", "?", "as", "where",
   "by", "else"]

/-- Whether a line break in front of the offset ends the statement; `next` is
the text of the token there, if there is one. -/
def breaksLine (rules : Rules) (lines : Text.Lines) (tracker : Tracker)
    (offset : Nat) (next : Option String) : Bool :=
  match tracker.previous with
  | none => false
  | some previous =>
    !tracker.header.isEmpty && tracker.parens == 0
      && lines.breakBetween previous.stop offset
      && !continuesAfter.contains previous.text
      && !next.any continuesBefore.contains
      && !rules.isDecorationOnly tracker.header

/-- The end of the statement being read. -/
def endStatement (rules : Rules) (lines : Text.Lines) (tracker : Tracker) :
    Tracker × ScopeEvent :=
  let site := if tracker.header.isEmpty then none
    else tracker.declared? rules lines .statement
  ({ tracker with header := [], parens := 0 }, .statement tracker.depth site)

-- ============================================================ braces

/-- An opening brace. -/
def push (rules : Rules) (lines : Text.Lines) (tracker : Tracker)
    (token : Token) : Tracked :=
  let opening :=
    match tracker.declared? rules lines .body with
    | some site => .declaration site
    | none => .block token.start
  let level :=
    { opening, header := tracker.header ++ [token], parens := tracker.parens }
  { tracker :=
      { tracker with
        levels := level :: tracker.levels, header := [], parens := 0 }
    events := [.push tracker.depth opening (0 < tracker.parens)]
    notices := [.opened opening.frame token.start] }

/-- The tracker with one more problem. -/
def report (lines : Text.Lines) (tracker : Tracker) (problem : Problem)
    (offset : Nat) : Tracked :=
  let diagnostic := ⟨problem, offset, lines.lineOf offset⟩
  { tracker :=
      { tracker with diagnostics := tracker.diagnostics ++ [diagnostic] }
    notices := [.problem diagnostic] }

/-- A closing brace. -/
def pop (lines : Text.Lines) (tracker : Tracker) (token : Token) : Tracked :=
  match tracker.levels with
  | [] => tracker.report lines .strayBrace token.start
  | level :: levels =>
    let resumed := 0 < level.parens
    let popped : Tracker :=
      { tracker with
        levels
        header := if resumed then level.header ++ [token] else []
        parens := if resumed then level.parens else 0 }
    { tracker := popped, events := [.pop popped.depth level.opening.frame] }

-- ============================================================ tokens

/-- The parentheses open after a token. -/
def parensAfter (parens : Nat) (token : Token) : Nat :=
  if token.text == "(" || token.text == "[" then parens + 1
  else if token.text == ")" || token.text == "]" then parens - 1
  else parens

/-- Reads a token that is no directive and no literal. -/
def feedCode (rules : Rules) (lines : Text.Lines) (tracker : Tracker)
    (token : Token) : Tracked :=
  if token.text == "\x7b" then tracker.push rules lines token
  else if token.text == "\x7d" then tracker.pop lines token
  else if token.text == ";" && tracker.parens == 0 then
    let (ended, event) := tracker.endStatement rules lines
    { tracker := ended, events := [event] }
  else
    { tracker :=
        { tracker.append token with
          parens := parensAfter tracker.parens token } }

/-- Reads a token, line breaks aside. -/
def feedToken (rules : Rules) (lines : Text.Lines) (tracker : Tracker)
    (token : Token) : Tracked :=
  let tracker := { tracker with previous := some token }
  match token.kind with
  | .directive =>
    { tracker := { tracker with header := [] },
      events := [.directive tracker.depth] }
  | .literal => { tracker := tracker.append token }
  | _ => tracker.feedCode rules lines token

/-- Ends the statement if a line break in front of the offset does. -/
def breakLine (rules : Rules) (lines : Text.Lines) (tracker : Tracker)
    (offset : Nat) (next : Option String) : Tracker × List ScopeEvent :=
  if rules.newlineTerminates && tracker.breaksLine rules lines offset next then
    let (ended, event) := tracker.endStatement rules lines
    (ended, [event])
  else (tracker, [])

/-- Reads a token. -/
def feed (rules : Rules) (lines : Text.Lines) (tracker : Tracker)
    (token : Token) : Tracked :=
  let (broken, breaks) :=
    tracker.breakLine rules lines token.start (some token.text)
  let read := broken.feedToken rules lines token
  { read with events := breaks ++ read.events }

/-- Ends the statement if a line break in front of the offset, where a
comment starts, does. -/
def breakBefore (rules : Rules) (lines : Text.Lines) (tracker : Tracker)
    (offset : Nat) : Tracker × List ScopeEvent :=
  tracker.breakLine rules lines offset none

-- =================================================== end of the text

/-- Ends the statement that the text ends in, where a line break could. -/
def flush (rules : Rules) (lines : Text.Lines) (tracker : Tracker) :
    Tracker × List ScopeEvent :=
  if rules.newlineTerminates && !tracker.header.isEmpty && tracker.parens == 0
      && !rules.isDecorationOnly tracker.header then
    let (ended, event) := tracker.endStatement rules lines
    (ended, [event])
  else (tracker, [])

/-- The scopes inside the file that are open, innermost first. -/
def unclosed (tracker : Tracker) : List Frame :=
  tracker.levels.map (·.opening.frame)

/-- Closes the scopes that are open at the end of the text, and reports them
at the innermost. -/
def close (lines : Text.Lines) (tracker : Tracker) (textEnd : Int) : Tracked :=
  let closed := { tracker with levels := [], header := [], parens := 0 }
  match tracker.unclosed with
  | [] => { tracker := closed }
  | frame :: frames =>
    closed.report lines (.openScopes (frames.length + 1) textEnd frame.kind)
      frame.start

end Tracker

end Marginalia
