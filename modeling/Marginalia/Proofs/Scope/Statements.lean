/-
The statements that a tracker reads, one inside the other.

What the tokens of a statement are is read off the calls and the events they
report (`Statements`), without a look at headers: a token joins the statement
being read unless it ends it, a push interrupts the statement, and a pop takes
it up again if the push stood inside parentheses.

A header and the parentheses counted in it move with the statement they are
of. So a property that ties the three together needs to be looked at where a
token joins, and nowhere else (`StatementLaw`): it then holds of the statement
being read and of those that wait on the stack after every call
(`Keeps.call`). A directive is the exception. It empties header and statement
and leaves the parentheses, and whether the property holds behind one is asked
for where it is read.
-/
import Marginalia.Proofs.Scope.Braces
import Marginalia.Proofs.Scope.Stack
import Mathlib.Data.List.DropRight
import Mathlib.Data.List.Forall2

namespace Marginalia

/-- Whether the token is a brace of the code. -/
def Token.isBrace (token : Token) : Bool := token.brace?.isSome

-- ======================================================== statements

/-- The statements being read: the innermost one, and those that open scopes
interrupt, innermost first, each up to the brace that does and with whether it
goes on behind the scope. -/
structure Statements where
  current : List Token := []
  interrupted : List (List Token × Bool) := []

namespace Statements

/-- What an event makes of the statements when the token is read. -/
def heed (token : Token) (s : Statements) : ScopeEvent → Statements
  | .directive _ => { s with current := [] }
  | .statement .. => { s with current := [] }
  | .push _ _ nested =>
    { current := [], interrupted :=
        (s.current ++ [token], nested) :: s.interrupted }
  | .pop .. =>
    match s.interrupted with
    | [] => s
    | (statement, nested) :: interrupted =>
      { current := if nested then statement ++ [token] else [], interrupted }

/-- Whether a token joins the statement, `events` being what it brings about: a
directive or brace does not, and a semicolon only if no statement ends. -/
def joins (token : Token) (events : List ScopeEvent) : Bool :=
  token.kind != .directive && !token.isBrace
    && (token.kind == .literal || token.text != ";" || events.isEmpty)

/-- The statements with the token, if it joins. -/
def join (token : Token) (events : List ScopeEvent) (s : Statements) :
    Statements :=
  if joins token events then { s with current := s.current ++ [token] } else s

/-- The statements behind a call. -/
def after (s : Statements) : ScopeCall × List ScopeEvent → Statements
  | (.feed token, events) => (events.foldl (heed token) s).join token events
  | (.close _, _) => {}
  | (_, events) => if events.isEmpty then s else { s with current := [] }

end Statements

/-- The tokens of the statement that is being read behind the calls of a log. -/
def currentStatement (log : List (ScopeCall × List ScopeEvent)) : List Token :=
  (log.foldl Statements.after {}).current

-- ============================================================ braces

/-- A token of the code is a brace by its text. -/
theorem Token.IsCode.isBrace_iff {token : Token} (h : token.IsCode) :
    token.isBrace = true ↔ token.text = "\x7b" ∨ token.text = "\x7d" := by
  obtain ⟨hliteral, hdirective⟩ := h
  have hbrace : token.brace? = if token.text = "\x7b" then
      some (.opening, token.start)
      else if token.text = "\x7d" then some (.closing, token.start)
      else none := by
    unfold Token.brace?
    split
    · next hkind => exact absurd hkind hliteral
    · next hkind => exact absurd hkind hdirective
    · rfl
  rw [Token.isBrace, hbrace]
  by_cases hopens : token.text = "\x7b"
  · simp [hopens]
  · by_cases hcloses : token.text = "\x7d"
    · simp [hcloses]
    · simp [hopens, hcloses]

/-- Code that is not one of the two signs is no brace. -/
theorem Token.IsCode.isBrace_eq_false {token : Token} (h : token.IsCode)
    (hopens : token.text ≠ "\x7b") (hcloses : token.text ≠ "\x7d") :
    token.isBrace = false := by
  rw [Bool.eq_false_iff, Ne, h.isBrace_iff, not_or]
  exact ⟨hopens, hcloses⟩

/-- A literal is no brace, whatever its text. -/
theorem Token.isBrace_literal {token : Token} (h : token.kind = .literal) :
    token.isBrace = false := by
  simp [Token.isBrace, Token.brace?, h]

namespace Statements

variable {token : Token} {events : List ScopeEvent}

/-- A token that joins the statement is its last. -/
theorem join_of_joins (s : Statements) (h : joins token events = true) :
    s.join token events = { s with current := s.current ++ [token] } := by
  rw [join, if_pos h]

theorem join_of_not_joins (s : Statements) (h : joins token events = false) :
    s.join token events = s := by
  rw [join, h, if_neg Bool.false_ne_true]

/-- A brace joins by what it opens or closes, never by itself. -/
theorem join_brace (s : Statements) (h : token.isBrace = true) :
    s.join token events = s :=
  join_of_not_joins s (by simp [joins, h])

/-- Code joins the statement unless it is a semicolon that ended one. -/
theorem joins_code (hcode : token.IsCode) (hbrace : token.isBrace = false) :
    joins token events = (token.text != ";" || events.isEmpty) := by
  obtain ⟨hliteral, hdirective⟩ := hcode
  rw [joins, hbrace, bne_iff_ne.2 hdirective, beq_eq_false_iff_ne.2 hliteral]
  simp only [Bool.not_false, Bool.true_and, Bool.false_or]

/-- A semicolon that ends a statement does not join it. -/
theorem join_ended (s : Statements) (hcode : token.IsCode)
    (htext : token.text = ";") (hends : events ≠ []) :
    s.join token events = s := by
  have hbrace : token.isBrace = false :=
    hcode.isBrace_eq_false (by rw [htext]; decide) (by rw [htext]; decide)
  refine join_of_not_joins s ?_
  simp [joins_code hcode hbrace, htext, hends]

/-- Any other code joins, and so does a semicolon inside `parens` parentheses,
where no line break ends a statement. -/
theorem join_code (s : Statements) {parens : Nat} (hcode : token.IsCode)
    (hbrace : token.isBrace = false) (hinside : token.text = ";" → 0 < parens)
    (hbreaks : events ≠ [] → parens = 0) :
    s.join token events = { s with current := s.current ++ [token] } := by
  refine join_of_joins s ?_
  rw [joins_code hcode hbrace]
  by_cases htext : token.text = ";"
  · have hnone : events = [] := by
      by_contra hsome
      have hzero := hbreaks hsome
      have hpos := hinside htext
      omega
    simp [hnone]
  · simp [htext]

end Statements

-- ======================================================= the tracker

/-- A property of a header, the parentheses counted in it and the tokens of its
statement, which lasts while tokens join. -/
structure StatementLaw (P : List Token → Nat → List Token → Prop) : Prop where
  /-- Where a statement starts. -/
  starts : P [] 0 []
  /-- A brace joins with the body that it opens or closes. -/
  brace : ∀ {header : List Token} {parens : Nat} {statement : List Token}
    {token : Token},
    token.IsCode → token.isBrace = true → P header parens statement →
      P (header ++ [token]) parens (statement ++ [token])
  /-- A literal joins, and the oldest tokens are dropped. -/
  literal : ∀ {header : List Token} {parens : Nat} {statement : List Token}
    {token : Token}, token.kind = .literal → P header parens statement →
      P ((header ++ [token]).rtake Tracker.maxHeaderTokens) parens
        (statement ++ [token])
  /-- Other code joins, and is counted. -/
  code : ∀ {header : List Token} {parens : Nat} {statement : List Token}
    {token : Token},
    token.IsCode → token.isBrace = false → P header parens statement →
      P ((header ++ [token]).rtake Tracker.maxHeaderTokens)
        (Tracker.parensAfter parens token) (statement ++ [token])

/-- Whether the call is to read a directive. -/
def ScopeCall.readsDirective : ScopeCall → Bool
  | .feed token => token.kind == .directive
  | _ => false

namespace Tracker

/-- The header is the end of the statement, as far as it is kept. -/
theorem append_header (t : Tracker) (token : Token) :
    (t.append token).header = (t.header ++ [token]).rtake maxHeaderTokens := by
  simp only [append, List.rtake]

theorem append_parens (t : Tracker) (token : Token) :
    (t.append token).parens = t.parens := by
  simp only [append]

/-- The property holds of the statement being read, and of those that wait on
the stack. These go on behind their scope if it stands inside parentheses. -/
structure Keeps (P : List Token → Nat → List Token → Prop) (t : Tracker)
    (s : Statements) : Prop where
  current : P t.header t.parens s.current
  levels : List.Forall₂
    (fun level statement => P level.header level.parens statement.1
    ∧ decide (0 < level.parens) = statement.2) t.levels s.interrupted

variable {P : List Token → Nat → List Token → Prop} {rules : Rules}
    {lines : Text.Lines}
  {t : Tracker} {s : Statements}

/-- A tracker in which nothing has been read. -/
theorem Keeps.fresh (law : StatementLaw P) : ({} : Tracker).Keeps P {} :=
  ⟨law.starts, .nil⟩

/-- The end of a statement. -/
theorem Keeps.cleared (law : StatementLaw P) (h : t.Keeps P s) :
    Tracker.Keeps P { t with header := [], parens := 0 }
      { s with current := [] } :=
  ⟨law.starts, h.levels⟩

/-- A token joins header and statement. -/
theorem Keeps.append (h : t.Keeps P s) {token : Token} {parens : Nat}
    (hjoined : P ((t.header ++ [token]).rtake maxHeaderTokens) parens
      (s.current ++ [token]))
    (previous : Option Token) :
    Tracker.Keeps P { t.append token with previous, parens }
      { s with current := s.current ++ [token] } := by
  refine ⟨?_, ?_⟩
  · simp only [append_header]
    exact hjoined
  · simp only [append_levels]
    exact h.levels

/-- The innermost statement that is interrupted. -/
theorem Keeps.innermost (h : t.Keeps P s) {level : Level} {levels : List Level}
    (hl : t.levels = level :: levels) :
    ∃ statement interrupted,
      s.interrupted = (statement, decide (0 < level.parens)) :: interrupted
        ∧ P level.header level.parens statement
        ∧ List.Forall₂ (fun level statement =>
          P level.header level.parens statement.1
          ∧ decide (0 < level.parens) = statement.2) levels interrupted := by
  have hlevels := h.levels
  rw [hl, List.forall₂_cons_left_iff] at hlevels
  obtain ⟨⟨statement, nested⟩, interrupted, ⟨hlevel, hnested⟩, hrest, hs⟩ :=
    hlevels
  refine ⟨statement, interrupted, ?_, hlevel, hrest⟩
  rw [hs, hnested]

/-- A token, `breaks` being what a line break in front of it brought about. -/
theorem Keeps.feedToken (law : StatementLaw P) (h : t.Keeps P s) {token : Token}
    (hdirective : token.kind = .directive → P [] t.parens [])
    {breaks : List ScopeEvent} (hbreaks : breaks ≠ [] → t.parens = 0) :
    (t.feedToken rules lines token).tracker.Keeps P
      (((t.feedToken rules lines token).events.foldl (Statements.heed token)
        s).join token (breaks ++ (t.feedToken rules lines token).events)) := by
  have hstep := feedToken_step rules lines t token
  generalize t.feedToken rules lines token = fed at hstep
  cases hstep with
  | directive kind =>
      rw [Statements.join_of_not_joins _ (by simp [Statements.joins, kind])]
      exact ⟨hdirective kind, h.levels⟩
  | literal kind =>
      have hbrace := Token.isBrace_literal kind
      rw [Statements.join_of_joins _ (by simp [Statements.joins, kind, hbrace])]
      have hjoined := law.literal kind h.current
      rw [← append_parens t token] at hjoined
      exact h.append hjoined _
  | opening text isCode =>
      have hbrace : token.isBrace = true := isCode.isBrace_iff.2 (.inl text)
      rw [Statements.join_brace _ hbrace]
      exact ⟨law.starts,
        .cons ⟨law.brace isCode hbrace h.current, rfl⟩ h.levels⟩
  | stray text stack diagnostic isCode =>
      rw [Statements.join_brace _ (isCode.isBrace_iff.2 (.inr text))]
      exact ⟨h.current, h.levels⟩
  | resume text level levels hl inside isCode =>
      have hbrace : token.isBrace = true := isCode.isBrace_iff.2 (.inr text)
      obtain ⟨statement, interrupted, hs, hlevel, hrest⟩ := h.innermost hl
      rw [Statements.join_brace _ hbrace]
      simp only [Statements.heed, List.foldl_cons, List.foldl_nil, hs, inside,
        decide_true, if_true]
      exact ⟨law.brace isCode hbrace hlevel, hrest⟩
  | closing text level levels hl outside isCode =>
      obtain ⟨statement, interrupted, hs, -, hrest⟩ := h.innermost hl
      rw [Statements.join_brace _ (isCode.isBrace_iff.2 (.inr text))]
      simp only [Statements.heed, List.foldl_cons, List.foldl_nil, hs, outside,
        Nat.lt_irrefl, decide_false, Bool.false_eq_true, if_false]
      exact ⟨law.starts, hrest⟩
  | ended text outside isCode =>
      rw [Statements.join_ended _ isCode text (by simp)]
      exact ⟨law.starts, h.levels⟩
  | code isCode noBrace inside =>
      have hbrace := isCode.isBrace_eq_false noBrace.1 noBrace.2
      rw [List.append_nil, Statements.join_code _ isCode hbrace inside hbreaks]
      exact h.append (law.code isCode hbrace h.current) _

/-- What holds of a header, its parentheses and its statement still holds when a
token is fed, if each of the steps of `StatementLaw` keeps it. -/
theorem Keeps.feed (law : StatementLaw P) (h : t.Keeps P s) {token : Token}
    (hdirective : token.kind = .directive → P [] t.parens []) :
    (t.call rules lines (.feed token)).1.Keeps P
      (s.after (.feed token, (t.call rules lines (.feed token)).2)) := by
  rw [call_feed]
  show Tracker.Keeps P _ (Statements.join _ _ (List.foldl _ _ _))
  rw [List.foldl_append]
  rcases breakLine_cases rules lines t token.start (some token.text)
    with hb | hb
  · rw [hb]
    have hnone : ([] : List ScopeEvent) ≠ [] → t.parens = 0 :=
      fun hsome => absurd rfl hsome
    exact h.feedToken law hdirective hnone
  · rw [hb]
    exact (h.cleared law).feedToken law (fun _ => law.starts) fun _ => rfl

/-- The end of a statement, or nothing. -/
theorem Keeps.ended (law : StatementLaw P) (h : t.Keeps P s)
    {x : Tracker × List ScopeEvent}
    (hx : x = (t, []) ∨ x = ({ t with header := [], parens := 0 },
      [.statement t.depth (t.declared? rules lines .statement)])) :
    x.1.Keeps P (if x.2.isEmpty then s else { s with current := [] }) := by
  rcases hx with rfl | rfl
  · exact h
  · exact h.cleared law

/-- Every call, where the property holds behind a directive that is read. -/
theorem Keeps.call (law : StatementLaw P) (h : t.Keeps P s) (call : ScopeCall)
    (hdirective : call.readsDirective = true → P [] t.parens []) :
    (t.call rules lines call).1.Keeps P
      (s.after (call, (t.call rules lines call).2)) := by
  cases call with
  | feed token => exact h.feed law fun hkind => hdirective (beq_iff_eq.2 hkind)
  | breakBefore offset =>
      exact h.ended law (breakLine_cases rules lines t offset none)
  | flush => exact h.ended law (flush_cases rules lines t)
  | close textEnd =>
      obtain ⟨hheader, hparens⟩ : (t.close lines textEnd).tracker.header = []
          ∧ (t.close lines textEnd).tracker.parens = 0 := by
        unfold close
        split <;> exact ⟨rfl, rfl⟩
      refine ⟨?_, ?_⟩
      · show P (t.close lines textEnd).tracker.header
          (t.close lines textEnd).tracker.parens []
        rw [hheader, hparens]
        exact law.starts
      · show List.Forall₂ _ (t.close lines textEnd).tracker.levels []
        rw [close_levels]
        exact .nil

end Tracker

end Marginalia
