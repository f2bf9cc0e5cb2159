/-
What a header keeps of its statement.

A header drops its oldest tokens when a token joins it, so that no more than
`maxHeaderTokens` are left. When a body inside its parentheses is closed the
header is taken up again with the two braces of the body, and then nothing is
dropped. So a header holds, of a statement that ends in the braces of such
bodies, all these braces and the most recent tokens in front of them
(`recent`): it is a back part of its statement, but one without a bound on its
length (`bodies_outgrow_header`).
-/
import Marginalia.Proofs.Scope.Statements
import Marginalia.Proofs.Span.Search
import Marginalia.Token.OfSpans

namespace Marginalia

-- ============================================================ recent

/-- The braces in which a statement ends. -/
def endBraces (statement : List Token) : List Token :=
  statement.rtakeWhile Token.isBrace

/-- The tokens of a statement in front of the braces in which it ends. -/
def beforeBraces (statement : List Token) : List Token :=
  statement.rdropWhile Token.isBrace

/-- The most recent tokens of a statement: the braces in which it ends, and as
many of those in front as a header may have. -/
def recent (statement : List Token) : List Token :=
  (beforeBraces statement).rtake Tracker.maxHeaderTokens ++ endBraces statement

/-- A list that was cut off in front is cut off with more behind it as the whole
list is. -/
theorem rtake_append_rtake {α : Type} (front back : List α) (n : Nat) :
    (front.rtake n ++ back).rtake n = (front ++ back).rtake n := by
  by_cases hshort : front.length ≤ n
  · have hwhole : front.rtake n = front := by
      rw [List.rtake, Nat.sub_eq_zero_of_le hshort, List.drop_zero]
    rw [hwhole]
  · simp only [List.rtake, List.length_append, List.length_drop,
      List.drop_append, List.drop_drop]
    congr 2 <;> omega

/-- A brace joins without anything being dropped. -/
theorem recent_brace (statement : List Token) {token : Token}
    (h : token.isBrace = true) :
    recent (statement ++ [token]) = recent statement ++ [token] := by
  rw [recent, beforeBraces, endBraces, List.rdropWhile_concat_pos _ _ _ h,
    List.rtakeWhile_concat_pos _ _ _ h, ← List.append_assoc]
  rfl

/-- Any other token joins, and then the oldest are dropped. -/
theorem recent_other (statement : List Token) {token : Token}
    (h : token.isBrace = false) :
    recent (statement ++ [token])
      = (recent statement ++ [token]).rtake Tracker.maxHeaderTokens := by
  have hbrace : ¬token.isBrace = true := by simp [h]
  rw [recent, beforeBraces, endBraces, List.rdropWhile_concat_neg _ _ _ hbrace,
    List.rtakeWhile_concat_neg _ _ _ hbrace, List.append_nil, recent,
    List.append_assoc, rtake_append_rtake, ← List.append_assoc, beforeBraces,
    endBraces, List.rdropWhile_append_rtakeWhile]

theorem recent_nil : recent [] = [] := by
  rw [recent, beforeBraces, endBraces, List.rdropWhile_nil, List.rtakeWhile_nil,
    List.rtake_nil, List.append_nil]

/-- The recent tokens are the last of a statement. -/
theorem recent_suffix (statement : List Token) :
    recent statement <:+ statement := by
  have hparts : beforeBraces statement ++ endBraces statement = statement :=
    List.rdropWhile_append_rtakeWhile ..
  obtain ⟨dropped, hdropped⟩ :
      (beforeBraces statement).rtake Tracker.maxHeaderTokens
      <:+ beforeBraces statement := List.drop_suffix ..
  refine ⟨dropped, ?_⟩
  rw [recent, ← List.append_assoc, hdropped, hparts]

/-- The most recent tokens are too many for a header only behind a brace, and
if the statement has too many. -/
theorem recent_length_le_iff (statement : List Token) :
    (recent statement).length ≤ Tracker.maxHeaderTokens
      ↔ statement.length ≤ Tracker.maxHeaderTokens
        ∨ endBraces statement = [] := by
  have hparts : (beforeBraces statement).length + (endBraces statement).length
      = statement.length := by
    rw [← List.length_append]
    exact congrArg List.length (List.rdropWhile_append_rtakeWhile ..)
  rw [recent, List.length_append, List.rtake, List.length_drop,
    ← List.length_eq_zero_iff]
  omega

-- =========================================================== headers

/-- A header holds the most recent tokens of its statement. -/
theorem recentLaw :
    StatementLaw fun header _ statement => header = recent statement where
  starts := recent_nil.symm
  brace _ hbrace h := by
    rw [recent_brace _ hbrace, h]
  literal kind h := by
    rw [recent_other _ (Token.isBrace_literal kind), h]
  code _ hbrace h := by
    rw [recent_other _ hbrace, h]

/-- After any calls the header is what is recent of the current statement. -/
theorem Tracker.callAll_follows (rules : Rules) (lines : Text.Lines)
    (calls : List ScopeCall) :
    (({} : Tracker).callAll rules lines calls).header
      = recent (currentStatement (({} : Tracker).log rules lines calls)) := by
  have hkeeps := callAll_keeps rules lines
    (P := fun t log =>
      t.Keeps (fun header _ statement => header = recent statement)
      (log.foldl Statements.after {}))
    (fun t log call h => by
      rw [List.foldl_append]
      exact h.call recentLaw call fun _ => recent_nil.symm)
    calls {} [] (.fresh recentLaw)
  exact hkeeps.current

/-- Whatever calls a tracker was given, its header has the most recent tokens of
the statement being read: the braces in which the statement ends, and of those
in front the last ones, as many as a header may have. So it has more than that
exactly if the statement has and ends in a brace. -/
theorem header_keeps_recent (rules : Rules) (lines : Text.Lines)
    (calls : List ScopeCall) :
    let header := (({} : Tracker).callAll rules lines calls).header
    let statement := currentStatement (({} : Tracker).log rules lines calls)
    header <:+ statement
      ∧ header = (beforeBraces statement).rtake Tracker.maxHeaderTokens
        ++ endBraces statement
      ∧ (header.length ≤ Tracker.maxHeaderTokens
        ↔ statement.length ≤ Tracker.maxHeaderTokens
          ∨ endBraces statement = []) := by
  intro header statement
  have hheader : header = recent statement :=
    Tracker.callAll_follows rules lines calls
  rw [hheader]
  exact ⟨recent_suffix statement, rfl, recent_length_le_iff statement⟩

-- ============================================= bodies in parentheses

/-- No line break ends a statement that has not started, or inside
parentheses. -/
theorem Tracker.breakLine_stays {t : Tracker} (h : t.header = [] ∨ 0 < t.parens)
    (rules : Rules) (lines : Text.Lines) (offset : Nat) (next : Option String) :
    t.breakLine rules lines offset next = (t, []) := by
  have hgoes : (!t.header.isEmpty && t.parens == 0) = false := by
    rcases h with h | h
    · rw [h]
      rfl
    · rw [beq_eq_false_iff_ne.2 (Nat.ne_of_gt h), Bool.and_false]
  have hbreaks : t.breaksLine rules lines offset next = false := by
    unfold breaksLine
    cases t.previous with
    | none => rfl
    | some previous => simp only [hgoes, Bool.false_and]
  simp only [breakLine, hbreaks, Bool.and_false, Bool.false_eq_true, if_false]

/-- The text of so many bodies with nothing in them. -/
def emptyBodies (count : Nat) : List Char :=
  (List.replicate count ['\x7b', '\x7d']).flatten

/-- The tokens of so many bodies with nothing in them, from an offset on. -/
def emptyBodyTokens (start : Nat) : Nat → List Token
  | 0 => []
  | count + 1 =>
    ⟨.punct, start, "\x7b"⟩ :: ⟨.punct, start + 1, "\x7d"⟩
      :: emptyBodyTokens (start + 2) count

theorem emptyBodyTokens_length (count : Nat) :
    ∀ start, (emptyBodyTokens start count).length = 2 * count := by
  induction count with
  | zero => exact fun _ => rfl
  | succ count ih =>
      intro start
      rw [emptyBodyTokens, List.length_cons, List.length_cons, ih]
      omega

/-- A body inside parentheses adds its braces to the header, and nothing is
dropped. -/
theorem Tracker.call_emptyBody {rules : Rules} {lines : Text.Lines}
    {t : Tracker} (h : 0 < t.parens) (start : Nat) :
    (((t.call rules lines (.feed ⟨.punct, start, "\x7b"⟩)).1.call rules lines
        (.feed ⟨.punct, start + 1, "\x7d"⟩)).1)
      = { t with
          header :=
  t.header ++ [⟨.punct, start, "\x7b"⟩, ⟨.punct, start + 1, "\x7d"⟩]
          previous := some ⟨.punct, start + 1, "\x7d"⟩ } := by
  have hopened : (t.call rules lines (.feed ⟨.punct, start, "\x7b"⟩)).1
      = (t.feedToken rules lines ⟨.punct, start, "\x7b"⟩).tracker := by
    rw [call_feed, breakLine_stays (.inr h)]
  rw [hopened, call_feed, breakLine_stays (.inl rfl)]
  simp [feedToken, feedCode, push, pop, h]

/-- In parentheses, empty bodies neither end the statement nor leave the
header. -/
theorem Tracker.callAll_emptyBodies (rules : Rules) (lines : Text.Lines)
    (count : Nat) :
    ∀ (t : Tracker) (start : Nat), 0 < t.parens →
      (t.callAll rules lines ((emptyBodyTokens start count).map .feed)).header
        = t.header ++ emptyBodyTokens start count := by
  induction count with
  | zero =>
      intro t start _
      exact (List.append_nil _).symm
  | succ count ih =>
      intro t start h
      simp only [emptyBodyTokens, List.map_cons, callAll]
      rw [call_emptyBody h, ih, List.append_assoc]
      · rfl
      · exact h

/-- None of the three signs starts a word, number, operator or white space. -/
theorem codeTokens_sign {c : Char} (h : c ∈ ['(', '\x7b', '\x7d']) (start : Nat)
    (cs : List Char) :
    codeTokens start (c :: cs)
      = ⟨.punct, start, String.ofList [c]⟩ :: codeTokens (start + 1) cs := by
  have hall : (['(', '\x7b', '\x7d'].all fun c =>
      !startsWord c && !Text.isDigit c && !Text.isBlank c) = true := by
    decide +kernel
  have hsign := List.all_eq_true.1 hall c h
  simp only [Bool.and_eq_true, Bool.not_eq_true'] at hsign
  obtain ⟨⟨hword, hdigit⟩, hblank⟩ := hsign
  have hoperator : operators.find? (·.isPrefixOf (c :: cs)) = none := by
    simp only [List.mem_cons, List.not_mem_nil, or_false] at h
    rcases h with rfl | rfl | rfl <;> rfl
  rw [codeTokens, hblank, if_neg Bool.false_ne_true, tokenAt, hword, hdigit,
    hoperator]
  rfl

theorem codeTokens_emptyBodies (count : Nat) :
    ∀ start, codeTokens start (emptyBodies count)
      = emptyBodyTokens start count := by
  induction count with
  | zero =>
      intro start
      exact codeTokens.eq_1 start
  | succ count ih =>
      intro start
      show codeTokens start ('\x7b' :: '\x7d' :: emptyBodies count) = _
      rw [codeTokens_sign (by decide), codeTokens_sign (by decide), ih]
      rfl

/-- An opening parenthesis and 512 bodies with nothing in them make a header of
one token too many. -/
theorem bodies_outgrow_header :
    let text := '(' :: emptyBodies 512
    let tokens := Dialect.java.rules.tokens text (Dialect.java.rules.spans text)
    (({} : Tracker).callAll Dialect.java.rules (.ofText text)
      (tokens.map .feed)).header.length
      = Tracker.maxHeaderTokens + 1 := by
  intro text tokens
  have hstarters : ∀ c ∈ text, c ∉ Dialect.java.rules.starters := by
    intro c hc
    have hsign : c ∈ ['(', '\x7b', '\x7d'] := by
      simp only [text, emptyBodies, List.mem_cons, List.mem_flatten,
        List.mem_replicate] at hc ⊢
      grind
    have hall :
        (['(', '\x7b', '\x7d'].all (!Dialect.java.rules.starters.contains ·))
          = true := by
      decide
    simpa using List.all_eq_true.1 hall c hsign
  have hspans : Dialect.java.rules.spans text = codeSpan 0 text := by
    have hpassed :=
      Dialect.java.delimited.spansFrom_passed 0 [] text [] none hstarters
    rw [List.append_nil, List.append_nil, Rules.spansFrom, List.reverse_reverse]
      at hpassed
    exact hpassed
  have htokens : tokens = ⟨.punct, 0, "("⟩ :: emptyBodyTokens 1 512 := by
    show (Dialect.java.rules.spans text).flatMap Span.tokens = _
    rw [hspans]
    show codeTokens 0 text ++ [] = _
    rw [List.append_nil, codeTokens_sign (by decide), codeTokens_emptyBodies]
  rw [htokens, List.map_cons, Tracker.callAll,
    Tracker.callAll_emptyBodies _ _ _ _ _ (by decide), List.length_append,
    emptyBodyTokens_length]
  rfl

end Marginalia
