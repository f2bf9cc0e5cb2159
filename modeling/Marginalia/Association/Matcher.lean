/-
Binding doc comments to declarations.

An outer doc comment opens a window. The window closes with a declaration
when the statement that starts after the comment turns out to declare
one, and without when that statement is something else, when a closing
brace or a directive comes in between, when an empty line parts comment
and code, when too many tokens go by, or when the text ends. An inner doc
comment is bound at once, to the declaration around it.

Records come out in the order of their comments. A record made while an
earlier comment's window is open is held until that window closes, so at
most one window is open and nothing is held without one.
-/
import Marginalia.Association.Record
import Marginalia.Scope.Tracker

namespace Marginalia

/-- What the matcher goes by while reading a text. -/
structure Reading where
  rules : Rules
  /-- The lines by which scopes are tracked. -/
  scopeLines : Text.Lines
  text : List Char
  lines : Text.Lines
  /-- The most tokens a window may see. -/
  window : Nat
  /-- The window's size as it was written. -/
  writtenWindow : String := toString window
  /-- The lines whose tokens are passed over. -/
  ignored : List Nat

/-- An outer doc comment waiting for its declaration. -/
structure Window where
  comment : Comment
  /-- The scopes open at the comment. -/
  depth : Nat
  /-- The comment stands inside parentheses. -/
  inCall : Bool
  /-- The start of the first token after the comment. -/
  firstStart : Option Nat := none
  /-- The tokens seen so far. -/
  tokens : Nat := 0
  deriving DecidableEq, Repr

/-- The state of the matcher. -/
structure Matcher where
  tracker : Tracker := {}
  window : Option Window := none
  /-- Records that wait for the window to close. -/
  held : List Record := []
  /-- The furthest offset read. -/
  lastEnd : Nat := 0
  deriving DecidableEq, Repr

/-- What a step of the matcher changes and puts out. -/
structure Matched where
  matcher : Matcher
  records : List Record := []
  notices : List Notice := []

/-- One step and then another. -/
def Matched.andThen (first : Matched) (next : Matcher → Matched) : Matched :=
  let second := next first.matcher
  { matcher := second.matcher
    records := first.records ++ second.records
    notices := first.notices ++ second.notices }

-- =========================================================== windows

/-- Whether the comment stands in an argument list right before the callback
that was opened. -/
def Window.documentsArgument (window : Window) (opening : Opening) : Bool :=
  window.inCall && opening.site?.any fun site =>
    window.firstStart == some site.start

/-- What an event means for an open window: nothing, or that it closes with
the given declaration. A statement that ends before any token after the
comment began before it. -/
def Window.decide (window : Window) : ScopeEvent → Option (Option Site)
  | .directive _ => some none
  | .pop depth _ => if depth < window.depth then some none else none
  | .statement depth site =>
    if depth == window.depth && 0 < window.tokens then some site else none
  | .push depth opening nested =>
    if depth != window.depth then none
    else if !nested || window.documentsArgument opening then some opening.site?
    else
      match opening with
      | .declaration _ => some none
      | .block _ => none

namespace Matcher

/-- Closes the window with a declaration or without. -/
def resolve (matcher : Matcher) (target : Option Site) : Matched :=
  match matcher.window with
  | none => { matcher }
  | some window =>
    let line := window.comment.line
    { matcher := { matcher with window := none, held := [] }
      records := ⟨window.comment, target, window.depth⟩ :: matcher.held
      notices := [
        match target with
        | none => .orphaned line
        | some site => .bound line site] }

/-- Closes the window if one of the events does. -/
def heed (matcher : Matcher) (events : List ScopeEvent) : Matched :=
  match matcher.window.bind fun window => events.findSome? window.decide with
  | none => { matcher }
  | some target => matcher.resolve target

/-- Closes a window that has seen no token, if an empty line stands in front
of the offset. -/
def detach (reading : Reading) (matcher : Matcher) (offset : Nat) : Matched :=
  if matcher.window.any (·.tokens == 0)
      && Text.hasEmptyLine reading.text matcher.lastEnd offset then
    matcher.resolve none
  else { matcher }

-- ========================================================== comments

/-- Puts out a record, or holds it while a window is open. -/
def emit (matcher : Matcher) (record : Record) : Matched :=
  if matcher.window.isSome then
    { matcher := { matcher with held := matcher.held ++ [record] } }
  else { matcher, records := [record] }

/-- Opens a window for an outer doc comment. -/
def openWindow (matcher : Matcher) (comment : Comment) : Matcher :=
  { matcher with
    window := some {
      comment
      depth := matcher.tracker.depth
      inCall := 0 < matcher.tracker.parens } }

/-- An outer doc comment: inside a header that has begun it documents
nothing, anywhere else it takes over from the comment before it. -/
def onOuter (comment : Comment) (matcher : Matcher) : Matched :=
  if matcher.window.any (0 < ·.tokens) then
    matcher.emit ⟨comment, none, matcher.tracker.depth⟩
  else (matcher.resolve none).andThen fun m =>
    { matcher := m.openWindow comment }

/-- A doc comment. -/
def onDoc (reading : Reading) (comment : Comment) (matcher : Matcher) :
    Matched :=
  let (tracker, events) :=
    matcher.tracker.breakBefore reading.rules reading.scopeLines comment.start
  ({ matcher with tracker }.heed events).andThen fun m =>
    match comment.placement with
    | .inner => m.emit ⟨comment, m.tracker.enclosingSite, m.tracker.depth⟩
    | .outer => m.onOuter comment

/-- A comment. -/
def onComment (reading : Reading) (comment : Comment) (matcher : Matcher) :
    Matched :=
  (matcher.detach reading comment.start).andThen fun m =>
    if comment.isDoc then m.onDoc reading comment else { matcher := m }

-- ============================================================ tokens

/-- Whether the token is passed over: it stands on an ignored line and is no
brace. -/
def ignores (reading : Reading) (token : Token) : Bool :=
  token.text != "\x7b" && token.text != "\x7d"
    && reading.ignored.contains (reading.lines.lineOf token.start)

/-- Notes the first token after the comment. -/
def noteFirst (matcher : Matcher) (token : Token) : Matcher :=
  { matcher with
    window := matcher.window.map fun w =>
      { w with firstStart := w.firstStart <|> some token.start } }

/-- Counts a token that did not close the window, and closes the window when
there were too many. -/
def countToken (reading : Reading) (matcher : Matcher) : Matched :=
  match matcher.window with
  | none => { matcher }
  | some window =>
    let counted :=
      { matcher with
        window := some { window with tokens := window.tokens + 1 } }
    if reading.window < window.tokens + 1 then
      Matched.andThen
        { matcher := counted
          notices :=
            [.windowExceeded window.comment.line reading.writtenWindow] }
        (·.resolve none)
    else { matcher := counted }

/-- Gives a token to the tracker and the window. -/
def feed (reading : Reading) (token : Token) (matcher : Matcher) : Matched :=
  let noted := matcher.noteFirst token
  let tracked := noted.tracker.feed reading.rules reading.scopeLines token
  Matched.andThen
    { matcher := { noted with tracker := tracked.tracker },
      notices := tracked.notices }
    fun m => (m.heed tracked.events).andThen (countToken reading)

/-- A token. -/
def onToken (reading : Reading) (token : Token) (matcher : Matcher) : Matched :=
  if ignores reading token then { matcher }
  else (matcher.detach reading token.start).andThen (feed reading token)

-- ============================================================== runs

/-- One item of the stream. -/
def step (reading : Reading) (matcher : Matcher) (item : Item) : Matched :=
  let matched :=
    match item with
    | .comment comment => matcher.onComment reading comment
    | .token token => matcher.onToken reading token
  { matched with
    matcher :=
      { matched.matcher with
        lastEnd := max matched.matcher.lastEnd item.stop } }

/-- The end of the text. -/
def finish (reading : Reading) (matcher : Matcher) : Matched :=
  let (tracker, events) :=
    matcher.tracker.flush reading.rules reading.scopeLines
  ({ matcher with tracker }.heed events).andThen fun m =>
    (m.resolve none).andThen fun m =>
      let closed := m.tracker.close reading.scopeLines reading.text.length
      { matcher := { m with tracker := closed.tracker, held := [] }
        records := m.held
        notices := closed.notices }

/-- A whole stream up to the end of the text. -/
def run (reading : Reading) (matcher : Matcher) : List Item → Matched
  | [] => matcher.finish reading
  | item :: items =>
    (matcher.step reading item).andThen fun m => m.run reading items

end Matcher

end Marginalia
