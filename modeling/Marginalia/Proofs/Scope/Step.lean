/-
What one token can do to the scopes.

`FeedStep` lists the cases once, with everything they change: a directive
drops the header, a literal or other code joins it, a brace opens a scope
or closes one or closes nothing, and a semicolon ends the statement. A line
break in front of a token or comment can only end a statement
(`breakLine_cases`). Invariants of the tracker are derived from these two
and never unfold the tracker again.

The file also fixes how paths go with levels (`pathOf`), since the path of
a declaration is taken when its event is made and compared much later.
-/
import Marginalia.Proofs.Header.Innermost
import Marginalia.Scope.Tracker

namespace Marginalia

-- ============================================================= paths

/-- The path of a stack of levels, innermost first, inside the file. -/
def pathOf (levels : List Level) : List ScopeRef :=
  Frame.file.ref :: levels.reverse.map (·.opening.frame.ref)

theorem pathOf_cons (level : Level) (levels : List Level) :
    pathOf (level :: levels) = pathOf levels ++ [level.opening.frame.ref] := by
  simp [pathOf]

/-- The path names the file and every open scope. -/
theorem pathOf_length (levels : List Level) :
    (pathOf levels).length = levels.length + 1 := by
  simp [pathOf]

/-- The token is part of the code: it is no literal and no directive. -/
def Token.IsCode (token : Token) : Prop :=
  token.kind ≠ .literal ∧ token.kind ≠ .directive

namespace Tracker

/-- The path of a tracker is read off its scopes. -/
theorem path_eq (tracker : Tracker) : tracker.path = pathOf tracker.levels := by
  simp [path, frames, pathOf]

/-- So it is as long as the tracker is deep. -/
theorem path_length (tracker : Tracker) :
    tracker.path.length = tracker.depth := by
  rw [path_eq, pathOf_length, depth]

-- ====================================================== declarations

/-- A declaration has the scopes that are open where it is made. -/
theorem declared?_path {rules : Rules} {lines : Text.Lines} {tracker : Tracker}
    {terminator : Terminator} {site : Site}
    (h : tracker.declared? rules lines terminator = some site) :
    site.path = tracker.path := by
  obtain ⟨found, -, rfl⟩ := Option.map_eq_some_iff.1 h
  rfl

/-- A declaration starts at a token of the statement that makes it. -/
theorem declared?_start {rules : Rules} {lines : Text.Lines} {tracker : Tracker}
    {terminator : Terminator} {site : Site}
    (h : tracker.declared? rules lines terminator = some site) :
    ∃ t ∈ tracker.header, t.start = site.start := by
  obtain ⟨found, hfound, rfl⟩ := Option.map_eq_some_iff.1 h
  exact analyzeHeader_start hfound

/-- A statement without tokens declares nothing. -/
theorem declared?_nil (rules : Rules) (lines : Text.Lines) {tracker : Tracker}
    (terminator : Terminator) (h : tracker.header = []) :
    tracker.declared? rules lines terminator = none := by
  cases hd : tracker.declared? rules lines terminator with
  | none => rfl
  | some site =>
      obtain ⟨t, ht, -⟩ := declared?_start hd
      rw [h] at ht
      cases ht

/-- The end of a statement, and what it declares. -/
theorem endStatement_eq (rules : Rules) (lines : Text.Lines)
    (tracker : Tracker) :
    tracker.endStatement rules lines
      = ({ tracker with header := [], parens := 0 },
          .statement tracker.depth
            (tracker.declared? rules lines .statement)) := by
  unfold endStatement
  cases h : tracker.header with
  | nil =>
      rw [declared?_nil rules lines .statement h]
      rfl
  | cons t ts => rfl

/-- A line break ends the statement or does nothing. -/
theorem breakLine_cases (rules : Rules) (lines : Text.Lines) (tracker : Tracker)
    (offset : Nat) (next : Option String) :
    tracker.breakLine rules lines offset next = (tracker, [])
      ∨ tracker.breakLine rules lines offset next
        = ({ tracker with header := [], parens := 0 },
            [.statement tracker.depth
              (tracker.declared? rules lines .statement)]) := by
  unfold breakLine
  split
  · rw [endStatement_eq]
    exact Or.inr rfl
  · exact Or.inl rfl

/-- The end of a line opens and closes no scope. -/
theorem breakLine_levels (rules : Rules) (lines : Text.Lines)
    (tracker : Tracker) (offset : Nat) (next : Option String) :
    (tracker.breakLine rules lines offset next).1.levels = tracker.levels := by
  rcases breakLine_cases rules lines tracker offset next with hb | hb
    <;> rw [hb]

/-- The end of the text ends the statement or does nothing. -/
theorem flush_cases (rules : Rules) (lines : Text.Lines) (tracker : Tracker) :
    tracker.flush rules lines = (tracker, [])
      ∨ tracker.flush rules lines
        = ({ tracker with header := [], parens := 0 },
            [.statement tracker.depth
              (tracker.declared? rules lines .statement)]) := by
  unfold flush
  split
  · rw [endStatement_eq]
    exact Or.inr rfl
  · exact Or.inl rfl

-- ============================================================ tokens

/-- What the brace `token` opens. -/
def opened (rules : Rules) (lines : Text.Lines) (tracker : Tracker)
    (token : Token) : Opening :=
  match tracker.declared? rules lines .body with
  | some site => .declaration site
  | none => .block token.start

/-- The ways in which a token moves the scopes, line breaks aside. -/
inductive FeedStep (rules : Rules) (lines : Text.Lines) (tracker : Tracker)
    (token : Token) : Tracked → Prop where
  /-- A directive drops the statement. -/
  | directive (kind : token.kind = .directive) :
      FeedStep rules lines tracker token
        { tracker := { tracker with previous := some token, header := [] }
          events := [.directive tracker.depth] }
  /-- A literal joins the statement. -/
  | literal (kind : token.kind = .literal) :
      FeedStep rules lines tracker token
        { tracker := { tracker.append token with previous := some token } }
  /-- A brace opens a scope. -/
  | opening (text : token.text = "\x7b") (isCode : token.IsCode) :
      FeedStep rules lines tracker token
        { tracker := { tracker with
            previous := some token
            levels :=
              ⟨tracker.opened rules lines token, tracker.header ++ [token],
              tracker.parens⟩ :: tracker.levels
            header := []
            parens := 0 }
          events := [.push tracker.depth (tracker.opened rules lines token)
            (0 < tracker.parens)]
          notices :=
            [.opened (tracker.opened rules lines token).frame token.start] }
  /-- A brace closes nothing. -/
  | stray (text : token.text = "\x7d") (stack : tracker.levels = [])
      (diagnostic : Diagnostic) (isCode : token.IsCode) :
      FeedStep rules lines tracker token
        { tracker := { tracker with
            previous := some token
            diagnostics := tracker.diagnostics ++ [diagnostic] }
          notices := [.problem diagnostic] }
  /-- A brace closes a scope inside parentheses, and the header goes on. -/
  | resume (text : token.text = "\x7d") (level : Level) (levels : List Level)
      (stack : tracker.levels = level :: levels) (inside : 0 < level.parens)
      (isCode : token.IsCode) :
      FeedStep rules lines tracker token
        { tracker := { tracker with
            previous := some token
            levels
            header := level.header ++ [token]
            parens := level.parens }
          events := [.pop (levels.length + 1) level.opening.frame] }
  /-- A brace closes a scope and with it the statement. -/
  | closing (text : token.text = "\x7d") (level : Level) (levels : List Level)
      (stack : tracker.levels = level :: levels) (outside : level.parens = 0)
      (isCode : token.IsCode) :
      FeedStep rules lines tracker token
        { tracker := { tracker with
            previous := some token
            levels
            header := []
            parens := 0 }
          events := [.pop (levels.length + 1) level.opening.frame] }
  /-- A semicolon ends the statement. -/
  | ended (text : token.text = ";") (outside : tracker.parens = 0)
    (isCode : token.IsCode) :
      FeedStep rules lines tracker token
        { tracker := { tracker with
            previous := some token, header := [], parens := 0 }
          events := [.statement tracker.depth
            (tracker.declared? rules lines .statement)] }
  /-- Any other code joins the statement, a semicolon inside parentheses too. -/
  | code (isCode : token.IsCode)
    (noBrace : token.text ≠ "\x7b" ∧ token.text ≠ "\x7d")
      (inside : token.text = ";" → 0 < tracker.parens) :
      FeedStep rules lines tracker token
        { tracker := { tracker.append token with
            previous := some token
            parens := parensAfter tracker.parens token } }

@[simp] theorem append_levels (tracker : Tracker) (token : Token) :
    (tracker.append token).levels = tracker.levels := by
  simp only [append]

theorem append_previous (tracker : Tracker) (token : Token)
    (previous : Option Token) :
    { tracker with previous }.append token
      = { tracker.append token with previous } := by
  simp only [append]

/-- Code that is no literal and no directive moves the scopes in one of the
ways listed. -/
theorem feedCode_step (rules : Rules) (lines : Text.Lines) (tracker : Tracker)
    {token : Token} (hcode : token.IsCode) :
    FeedStep rules lines tracker token
      ({ tracker with previous := some token }.feedCode rules lines token) := by
  unfold feedCode
  split
  · next h =>
    exact .opening (by simpa using h) hcode
  · next hopens =>
    split
    · next h =>
      have htext : token.text = "\x7d" := by simpa using h
      unfold pop
      cases hl : tracker.levels with
      | nil =>
          unfold report
          have hstray : FeedStep rules lines tracker token _ :=
            .stray htext hl ⟨.strayBrace, token.start,
              lines.lineOf token.start⟩ hcode
          rw [hl] at hstray
          exact hstray
      | cons level levels =>
          by_cases hp : 0 < level.parens
          · simp only [hp, if_true, depth]
            exact .resume htext level levels hl hp hcode
          · simp only [hp, if_false, depth]
            exact .closing htext level levels hl (by omega) hcode
    · next hcloses =>
      split
      · next h =>
        simp only [Bool.and_eq_true, beq_iff_eq] at h
        rw [endStatement_eq]
        exact .ended h.1 h.2 hcode
      · next hends =>
        simp only [append_previous]
        refine .code hcode ⟨by simpa using hopens, by simpa using hcloses⟩
          fun htext => ?_
        simp only [htext, beq_self_eq_true, Bool.true_and, beq_iff_eq] at hends
        omega

/-- Every token moves the scopes in one of the ways listed. -/
theorem feedToken_step (rules : Rules) (lines : Text.Lines) (tracker : Tracker)
    (token : Token) :
    FeedStep rules lines tracker token
      (tracker.feedToken rules lines token) := by
  unfold feedToken
  split
  · next h => exact .directive h
  · next h =>
    simp only [append_previous]
    exact .literal h
  · next hdirective hliteral =>
    exact feedCode_step rules lines tracker ⟨hliteral, hdirective⟩

/-- Reading a token is a line break, perhaps, and then the token itself. -/
theorem feed_eq (rules : Rules) (lines : Text.Lines) (tracker : Tracker)
    (token : Token) :
    tracker.feed rules lines token
      = { (tracker.breakLine rules lines token.start
        (some token.text)).1.feedToken
            rules lines token with
          events :=
  (tracker.breakLine rules lines token.start (some token.text)).2
            ++ ((tracker.breakLine rules lines token.start
              (some token.text)).1.feedToken rules lines token).events } := rfl

end Tracker

end Marginalia
