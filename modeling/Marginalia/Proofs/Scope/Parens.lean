/-
The parentheses a tracker counts, and the header they stand in.

A tracker keeps the number of open parentheses beside the header and not in
it, and each way to go on sets both. `openParens` reads the number off tokens.
It is what the tracker counts if the tokens are those of the whole statement
(`Keeps.callOver`), where a directive among them drops nothing. The header does
lose its tokens at a directive, and the number stays. So the two tell of the
same tokens for as long as no directive is read inside parentheses, and no
longer (`parens_agree_with_header_iff`).
-/
import Marginalia.Proofs.Scope.Recent
import Mathlib.Data.List.Infix

namespace Marginalia

-- ======================================================= parentheses

/-- The parenthesis or bracket that a token is, and where. What stands in a
literal or directive is none. -/
def Token.paren? (token : Token) : Option (Brace × Nat) :=
  match token.kind with
  | .literal | .directive => none
  | _ =>
    if token.text = "(" ∨ token.text = "[" then some (.opening, token.start)
    else if token.text = ")" ∨ token.text = "]" then
      some (.closing, token.start)
    else none

/-- The parentheses and brackets that tokens leave open, read from left to
right; one that closes nothing is passed over. -/
def openParens (tokens : List Token) : Nat :=
  openBraces 0 (tokens.filterMap Token.paren?)

/-- A token counts the parenthesis that it is, if it is one. -/
theorem openParens_concat (tokens : List Token) (token : Token) :
    openParens (tokens ++ [token])
      = openBraces (openParens tokens) token.paren?.toList := by
  rw [openParens, List.filterMap_append, openBraces_append]
  cases htoken : token.paren? with
  | none => rw [List.filterMap_cons_none htoken]; rfl
  | some paren => rw [List.filterMap_cons_some htoken]; rfl

theorem openParens_concat_other (tokens : List Token) {token : Token}
    (h : token.paren? = none) :
    openParens (tokens ++ [token]) = openParens tokens := by
  rw [openParens_concat, h]
  rfl

theorem Token.paren?_literal {token : Token} (h : token.kind = .literal) :
    token.paren? = none := by
  simp [Token.paren?, h]

/-- A token of the code is a parenthesis by its text. -/
theorem Token.IsCode.paren?_eq {token : Token} (h : token.IsCode) :
    token.paren? = if token.text = "(" ∨ token.text = "[" then
      some (.opening, token.start)
      else if token.text = ")" ∨ token.text = "]" then
        some (.closing, token.start)
      else none := by
  obtain ⟨hliteral, hdirective⟩ := h
  unfold Token.paren?
  split
  · next hkind => exact absurd hkind hliteral
  · next hkind => exact absurd hkind hdirective
  · rfl

theorem Token.IsCode.paren?_brace {token : Token} (h : token.IsCode)
    (hbrace : token.text = "\x7b" ∨ token.text = "\x7d") :
    token.paren? = none := by
  rw [h.paren?_eq]
  rcases hbrace with htext | htext <;> simp [htext]

/-- The tracker's number moves as the parenthesis does. -/
theorem Token.IsCode.parensAfter_eq {token : Token} (h : token.IsCode)
    (parens : Nat) :
    Tracker.parensAfter parens token
      = openBraces parens token.paren?.toList := by
  rw [h.paren?_eq, Tracker.parensAfter]
  by_cases hopens : token.text = "(" ∨ token.text = "["
  · rw [if_pos hopens, if_pos (by simpa using hopens)]
    rfl
  · rw [if_neg hopens, if_neg (by simpa using hopens)]
    by_cases hcloses : token.text = ")" ∨ token.text = "]"
    · rw [if_pos hcloses, if_pos (by simpa using hcloses)]
      rfl
    · rw [if_neg hcloses, if_neg (by simpa using hcloses)]
      rfl

-- ================================================== whole statements

/-- Whether the event is that of a directive. -/
def ScopeEvent.isDirective : ScopeEvent → Bool
  | .directive _ => true
  | _ => false

/-- A call with its events, where directives pass unnoticed. -/
def overDirectives (entry : ScopeCall × List ScopeEvent) :
    ScopeCall × List ScopeEvent :=
  (entry.1, entry.2.filter (!·.isDirective))

/-- The tokens of the statement that is being read behind the calls of a log,
those in front of its directives included. -/
def wholeStatement (log : List (ScopeCall × List ScopeEvent)) : List Token :=
  currentStatement (log.map overDirectives)

namespace Tracker

/-- The parentheses counted are those that the statement leaves open. -/
theorem parensLaw :
    StatementLaw fun _ parens statement => parens = openParens statement where
  starts := rfl
  brace isCode hbrace h := by
    rw [openParens_concat_other _
      (isCode.paren?_brace (isCode.isBrace_iff.1 hbrace)), h]
  literal kind h := by
    rw [openParens_concat_other _ (Token.paren?_literal kind), h]
  code isCode _ h := by
    rw [isCode.parensAfter_eq, openParens_concat, h]

variable {rules : Rules} {lines : Text.Lines} {t : Tracker} {s : Statements}

-- ======================================================== directives

/-- A line break ends no statement inside parentheses. -/
theorem breakLine_parens (rules : Rules) (lines : Text.Lines) (t : Tracker)
    (offset : Nat) (next : Option String) :
    (t.breakLine rules lines offset next).1.parens = t.parens := by
  by_cases hinside : 0 < t.parens
  · rw [breakLine_stays (.inr hinside)]
  · have hzero : t.parens = 0 := by omega
    rcases breakLine_cases rules lines t offset next with hb | hb
    · rw [hb]
    · rw [hb, hzero]

/-- A directive drops the header and leaves the parentheses as they are. -/
theorem call_directive (rules : Rules) (lines : Text.Lines) (t : Tracker)
    {token : Token} (hkind : token.kind = .directive) :
    (t.call rules lines (.feed token)).1
      = { t with header := [], previous := some token }
      ∧ (t.call rules lines (.feed token)).2
        = (t.breakLine rules lines token.start (some token.text)).2
          ++ [.directive t.depth] := by
  have hparens := breakLine_parens rules lines t token.start (some token.text)
  rw [call_feed]
  rcases breakLine_cases rules lines t token.start (some token.text)
    with hb | hb
  · simp [hb, feedToken, hkind, depth]
  · rw [hb] at hparens
    simp [hb, feedToken, hkind, ← hparens, depth]

/-- Only a directive reports one. -/
theorem overDirectives_eq {call : ScopeCall} (h : call.readsDirective = false) :
    overDirectives (call, (t.call rules lines call).2)
      = (call, (t.call rules lines call).2) := by
  have hbreak : ∀ offset next,
      (t.breakLine rules lines offset next).2.filter (!·.isDirective)
      = (t.breakLine rules lines offset next).2 := by
    intro offset next
    rcases breakLine_cases rules lines t offset next with hb | hb <;>
      · rw [hb]
        rfl
  refine congrArg (Prod.mk call) ?_
  cases call with
  | feed token =>
      rw [call_feed, List.filter_append, hbreak]
      refine congrArg _ ?_
      generalize (t.breakLine rules lines token.start (some token.text)).1
          = broken
      have hstep := feedToken_step rules lines broken token
      generalize broken.feedToken rules lines token = fed at hstep
      cases hstep with
      | directive kind => exact absurd kind (beq_eq_false_iff_ne.1 h)
      | literal | opening | stray | resume | closing | ended | code => rfl
  | breakBefore offset => exact hbreak offset none
  | flush =>
      show (t.flush rules lines).2.filter _ = (t.flush rules lines).2
      rcases flush_cases rules lines t with hf | hf <;>
        · rw [hf]
          rfl
  | close textEnd => rfl

/-- Every call, where directives pass unnoticed. -/
theorem Keeps.callOver
    (h : t.Keeps (fun _ parens statement => parens = openParens statement) s)
    (call : ScopeCall) :
    (t.call rules lines call).1.Keeps
      (fun _ parens statement => parens = openParens statement)
      (s.after (overDirectives (call, (t.call rules lines call).2))) := by
  cases hcall : call.readsDirective with
  | false =>
      rw [overDirectives_eq hcall]
      exact h.call parensLaw call fun hreads => absurd hreads (by simp [hcall])
  | true =>
      cases call with
      | breakBefore | flush | close => cases hcall
      | feed token =>
          have hkind : token.kind = .directive := beq_iff_eq.1 hcall
          obtain ⟨htracker, hevents⟩ := call_directive rules lines t hkind
          have hparens :=
            breakLine_parens rules lines t token.start (some token.text)
          rw [htracker, overDirectives, hevents, Statements.after,
            Statements.join_of_not_joins _ (by simp [Statements.joins, hkind])]
          rcases breakLine_cases rules lines t token.start (some token.text)
            with hb | hb
          · rw [hb]
            exact ⟨h.current, h.levels⟩
          · rw [hb] at hparens ⊢
            exact ⟨hparens.symm, h.levels⟩

-- ============================================================== runs

/-- What calls keep that are made where `Q` allows them holds after all calls,
if each of these is allowed where it is made. -/
theorem callAll_keeps_where (rules : Rules) (lines : Text.Lines)
    {P : Tracker → List (ScopeCall × List ScopeEvent) → Prop}
    {Q : Tracker → ScopeCall → Prop} (hcall : ∀ t log call, P t log → Q t call →
      P (t.call rules lines call).1
        (log ++ [(call, (t.call rules lines call).2)]))
    (calls : List ScopeCall) :
    ∀ t log, P t log →
      (∀ front call, front ++ [call] <+: calls →
        Q (t.callAll rules lines front) call) →
      P (t.callAll rules lines calls) (log ++ t.log rules lines calls) := by
  induction calls with
  | nil =>
      intro t log h _
      rw [Tracker.log, List.append_nil]
      exact h
  | cons call calls ih =>
      intro t log h hallowed
      rw [Tracker.log, List.append_cons]
      refine ih _ _ (hcall t log call h (hallowed [] call (by simp)))
        fun front other hfront => ?_
      exact hallowed (call :: front) other
        (List.prefix_cons_inj call |>.2 hfront)

/-- The last of some calls is made in the state that the others leave. -/
theorem callAll_concat (rules : Rules) (lines : Text.Lines) (call : ScopeCall)
    (calls : List ScopeCall) :
    ∀ t : Tracker, t.callAll rules lines (calls ++ [call])
      = ((t.callAll rules lines calls).call rules lines call).1 := by
  induction calls with
  | nil => exact fun t => rfl
  | cons first calls ih => exact fun t => ih _

/-- After any calls the parentheses open are those of the whole statement. -/
theorem callAll_countsOver (rules : Rules) (lines : Text.Lines)
    (calls : List ScopeCall) :
    (({} : Tracker).callAll rules lines calls).parens
      = openParens (wholeStatement (({} : Tracker).log rules lines calls)) := by
  have hcounts := callAll_keeps rules lines
    (P := fun t log =>
      t.Keeps (fun _ parens statement => parens = openParens statement)
      ((log.map overDirectives).foldl Statements.after {}))
    (fun t log call h => by
      rw [List.map_append, List.foldl_append]
      exact h.callOver call)
    calls {} [] (.fresh parensLaw)
  exact hcounts.current

/-- The parentheses of the statement behind the last directive, where directives
are read outside parentheses. -/
theorem callAll_counts (rules : Rules) (lines : Text.Lines)
    {calls : List ScopeCall} (houtside : ∀ front call,
      front ++ [call] <+: calls → call.readsDirective = true →
      (({} : Tracker).callAll rules lines front).parens = 0) :
    (({} : Tracker).callAll rules lines calls).parens
      = openParens
        (currentStatement (({} : Tracker).log rules lines calls)) := by
  have hcounts := callAll_keeps_where rules lines
    (P := fun t log =>
      t.Keeps (fun _ parens statement => parens = openParens statement)
      (log.foldl Statements.after {}))
    (Q := fun t call => call.readsDirective = true → t.parens = 0)
    (fun t log call h hcall => by
      rw [List.foldl_append]
      exact h.call parensLaw call hcall)
    calls {} [] (.fresh parensLaw) houtside
  exact hcounts.current

end Tracker

/-- A statement that is not too long is kept as a whole. -/
theorem recent_of_length_le {statement : List Token}
    (h : statement.length ≤ Tracker.maxHeaderTokens) :
    recent statement = statement := by
  have hparts : beforeBraces statement ++ endBraces statement = statement :=
    List.rdropWhile_append_rtakeWhile ..
  have hlength : (beforeBraces statement).length ≤ Tracker.maxHeaderTokens := by
    have hle := (List.rdropWhile_prefix Token.isBrace statement).length_le
    exact Nat.le_trans hle h
  rw [recent, List.rtake, Nat.sub_eq_zero_of_le hlength, List.drop_zero, hparts]

/-- Whatever calls a tracker was given, it counts the parentheses that the
tokens of the whole statement leave open. Where no statement was longer than a
header may be, this is what the header leaves open too, in every state on the
way, exactly if no directive was read inside parentheses. -/
theorem parens_agree_with_header_iff (rules : Rules) (lines : Text.Lines)
    (calls : List ScopeCall) :
    let state := fun front => ({} : Tracker).callAll rules lines front
    let log := fun front => ({} : Tracker).log rules lines front
    (state calls).parens = openParens (wholeStatement (log calls))
      ∧ ((∀ front, front <+: calls →
            (currentStatement (log front)).length ≤ Tracker.maxHeaderTokens) →
          ((∀ front, front <+: calls →
            (state front).parens = openParens (state front).header)
            ↔ ∀ front call, front ++ [call] <+: calls →
              call.readsDirective = true →
              (state front).parens = 0)) := by
  intro state log
  refine ⟨Tracker.callAll_countsOver rules lines calls, fun hfits => ⟨?_, ?_⟩⟩
  · intro hagree front call hfront hreads
    cases call with
    | breakBefore | flush | close => cases hreads
    | feed token =>
        have hafter := hagree _ hfront
        simp only [state, Tracker.callAll_concat] at hafter
        rw [(Tracker.call_directive rules lines _ (beq_iff_eq.1 hreads)).1]
          at hafter
        exact hafter
  · intro houtside front hfront
    have hcounts :=
      Tracker.callAll_counts rules lines fun before call hbefore =>
      houtside before call (hbefore.trans hfront)
    have hheader := Tracker.callAll_follows rules lines front
    rw [recent_of_length_le (hfits front hfront)] at hheader
    simp only [state]
    rw [hcounts, hheader]

/-- The calls that feed a tracker the tokens of a text. -/
def Rules.feeds (rules : Rules) (text : List Char) : List ScopeCall :=
  (rules.tokens text (rules.spans text)).map .feed

/-- Two brackets that are open behind a directive. -/
def parensBehindDirective : List Char := "#x\nf(a[".toList

/-- Two brackets open behind a directive, which was read in front of them. -/
theorem parens_agree_behind_directive :
    (∀ front, front <+: Dialect.c.rules.feeds parensBehindDirective →
        (currentStatement
          (({} : Tracker).log Dialect.c.rules (.ofText parensBehindDirective)
          front)).length ≤ Tracker.maxHeaderTokens)
      ∧ ∀ front, front <+: Dialect.c.rules.feeds parensBehindDirective →
        (({} : Tracker).callAll Dialect.c.rules (.ofText parensBehindDirective)
          front).parens
          = openParens
            (({} : Tracker).callAll Dialect.c.rules
              (.ofText parensBehindDirective) front).header := by
  have hfeeds : Dialect.c.rules.feeds parensBehindDirective
      = [.feed ⟨.directive, 0, "#x"⟩, .feed ⟨.word, 3, "f"⟩,
        .feed ⟨.punct, 4, "("⟩, .feed ⟨.word, 5, "a"⟩,
        .feed ⟨.punct, 6, "["⟩] := by
    have htokens : Dialect.c.rules.tokens parensBehindDirective
        (Dialect.c.rules.spans parensBehindDirective)
        = [⟨.directive, 0, "#x"⟩, ⟨.word, 3, "f"⟩, ⟨.punct, 4, "("⟩,
          ⟨.word, 5, "a"⟩, ⟨.punct, 6, "["⟩] := by
      rw [Dialect.spans_eq]
      decide +kernel
    rw [Rules.feeds, htokens]
    rfl
  have hfits : ∀ front, front <+: Dialect.c.rules.feeds parensBehindDirective →
      (currentStatement
        (({} : Tracker).log Dialect.c.rules (.ofText parensBehindDirective)
        front)).length ≤ Tracker.maxHeaderTokens := by
    simp only [hfeeds, ← List.mem_inits]
    decide
  have hread : ∀ read, read <+: Dialect.c.rules.feeds parensBehindDirective →
      read.getLast?.any ScopeCall.readsDirective = true →
        (({} : Tracker).callAll Dialect.c.rules (.ofText parensBehindDirective)
          read.dropLast).parens = 0 := by
    simp only [hfeeds, ← List.mem_inits]
    decide
  refine ⟨hfits, ((parens_agree_with_header_iff _ _ _).2 hfits).2 ?_⟩
  intro front call hfront hreads
  simpa using hread _ hfront (by simpa using hreads)

/-- A directive inside parentheses. -/
def directiveInParens : List Char := "f(\n#x\n".toList

/-- A directive inside parentheses drops the header they stand in, and they
stay open. -/
theorem directive_leaves_parens_open :
    (∀ front, front <+: Dialect.c.rules.feeds directiveInParens →
        (currentStatement
          (({} : Tracker).log Dialect.c.rules (.ofText directiveInParens)
          front)).length ≤ Tracker.maxHeaderTokens)
      ∧ (({} : Tracker).callAll Dialect.c.rules (.ofText directiveInParens)
          (Dialect.c.rules.feeds directiveInParens)).parens
        ≠ openParens
          (({} : Tracker).callAll Dialect.c.rules (.ofText directiveInParens)
          (Dialect.c.rules.feeds directiveInParens)).header := by
  have hfeeds : Dialect.c.rules.feeds directiveInParens
      = [.feed ⟨.word, 0, "f"⟩, .feed ⟨.punct, 1, "("⟩,
        .feed ⟨.directive, 3, "#x"⟩] := by
    have htokens : Dialect.c.rules.tokens directiveInParens
        (Dialect.c.rules.spans directiveInParens)
        = [⟨.word, 0, "f"⟩, ⟨.punct, 1, "("⟩, ⟨.directive, 3, "#x"⟩] := by
      rw [Dialect.spans_eq]
      decide +kernel
    rw [Rules.feeds, htokens]
    rfl
  simp only [hfeeds, ← List.mem_inits]
  decide

end Marginalia
