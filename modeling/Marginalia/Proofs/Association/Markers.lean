/-
The matcher does not look at doc markers.

Which comments are doc comments is settled before the matcher reads them, and
headers are analysed by other parts of the table. So a run depends on the
markers only through its stream (`run_markers`).
-/
import Marginalia.Association.Matcher

namespace Marginalia

variable (markers : List DocMarker)

-- =========================================================== headers

namespace Rules

variable (rules : Rules)

/-- Decorations are taken off without a look at the markers. -/
theorem undecorated_markers (atStart : Bool) (ts : List Token) :
    { rules with markers }.undecorated atStart ts
      = rules.undecorated atStart ts := by
  have hdecoration : ∀ atStart t ts,
      { rules with markers }.decoration? atStart t ts
      = rules.decoration? atStart t ts := fun _ _ _ => rfl
  fun_induction Rules.undecorated rules atStart ts with
  | case1 atStart => rw [undecorated]
  | case2 atStart t ts rest h ih =>
      rw [undecorated, hdecoration, h]
      exact ih
  | case3 atStart t ts h ih =>
      rw [undecorated, hdecoration, h]
      exact congrArg (t :: ·) ih

theorem unmodified_markers (ts : List Token) :
    { rules with markers }.unmodified ts = rules.unmodified ts := by
  fun_induction Rules.unmodified rules ts with
  | case1 t next ts h ih => rw [unmodified, if_pos h, ih]
  | case2 t next ts h => rw [unmodified, if_neg h]
  | case3 ts h =>
      rw [unmodified]
      exact h

/-- Nor does what an expression declares depend on them. -/
theorem declaration?_markers (terminator : Terminator) (enclosing : ScopeKind)
    (expr : List Token) :
    { rules with markers }.declaration? terminator enclosing expr
      = rules.declaration? terminator enclosing expr := by
  have hshape : ∀ terminator signatures expr,
      { rules with markers }.shape? terminator enclosing signatures expr
        = rules.shape? terminator enclosing signatures expr := fun _ _ _ => rfl
  simp only [declaration?, leftFunction?, expressionShape?,
    unmodified_markers, hshape]

/-- So a header declares the same thing under all markers. -/
theorem analyzeHeader_markers (terminator : Terminator) (enclosing : ScopeKind)
    (header : List Token) :
    { rules with markers }.analyzeHeader terminator enclosing header
      = rules.analyzeHeader terminator enclosing header := by
  simp only [analyzeHeader, undecorated_markers, declaration?_markers]

/-- And it is only decoration under all or none of them. -/
theorem isDecorationOnly_markers (ts : List Token) :
    { rules with markers }.isDecorationOnly ts = rules.isDecorationOnly ts := by
  rw [isDecorationOnly, undecorated_markers]
  rfl

end Rules

-- ============================================================ scopes

namespace Tracker

variable (rules : Rules) (lines : Text.Lines) (t : Tracker)

/-- The end of a statement brings the same events. -/
theorem endStatement_markers :
    t.endStatement { rules with markers } lines
      = t.endStatement rules lines := by
  simp only [endStatement, declared?, Rules.analyzeHeader_markers]

theorem breakLine_markers (offset : Nat) (next : Option String) :
    t.breakLine { rules with markers } lines offset next
      = t.breakLine rules lines offset next := by
  have hbreaks : t.breaksLine { rules with markers } lines offset next
      = t.breaksLine rules lines offset next := by
    simp only [breaksLine, Rules.isDecorationOnly_markers]
  simp only [breakLine, hbreaks, endStatement_markers]

/-- So does a token, which ends a line, a statement or neither. -/
theorem feed_markers (token : Token) :
    t.feed { rules with markers } lines token = t.feed rules lines token := by
  simp only [feed, breakLine_markers, feedToken, feedCode, push, declared?,
    Rules.analyzeHeader_markers, endStatement_markers]

theorem flush_markers :
    t.flush { rules with markers } lines = t.flush rules lines := by
  simp only [flush, Rules.isDecorationOnly_markers, endStatement_markers]

end Tracker

-- ============================================================== runs

/-- What the matcher goes by, with the markers in place of the table's own. -/
def Reading.withMarkers (reading : Reading) : Reading :=
  { reading with rules := { reading.rules with markers } }

/-- The matcher asks a comment whether it documents, and the table only for what
a header declares. So its step is the same under all markers. -/
theorem step_markers (reading : Reading) (m : Matcher) (item : Item) :
    m.step (reading.withMarkers markers) item = m.step reading item := by
  cases item with
  | comment c =>
      have hbreak : ∀ m : Matcher,
          m.onDoc (reading.withMarkers markers) c = m.onDoc reading c := by
        intro m
        simp only [Matcher.onDoc, Tracker.breakBefore, Reading.withMarkers,
          Tracker.breakLine_markers]
      simp only [Matcher.step, Matcher.onComment, hbreak]
      rfl
  | token t =>
      have hfeed : Matcher.feed (reading.withMarkers markers) t
          = Matcher.feed reading t := by
        funext m
        simp only [Matcher.feed, Reading.withMarkers, Tracker.feed_markers]
        rfl
      simp only [Matcher.step, Matcher.onToken, hfeed]
      rfl

/-- The records of a stream do not depend on the markers. -/
theorem run_markers (reading : Reading) (items : List Item) :
    ∀ m : Matcher, m.run (reading.withMarkers markers) items
      = m.run reading items := by
  induction items with
  | nil =>
      intro m
      simp only [Matcher.run, Matcher.finish, Reading.withMarkers,
        Tracker.flush_markers]
  | cons item items ih =>
      intro m
      rw [Matcher.run, Matcher.run, step_markers]
      exact congrArg _ (funext ih)

end Marginalia
