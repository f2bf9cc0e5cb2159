/-
Every visible character of code in one token.

Spans are cut by what they hold and directives by lines, so a directive may
cover comments, several stretches of code and the front of a literal. But it
ends in front of a line end (`Token.directive_ends`), and no token of code
holds one: whatever starts in a directive and is no literal ends in it too.
So putting directives together leaves no visible character of code without a
token and none with two. Tokens and comments then merge into one stream that
has each of them once (`tokens_tokenize`).
-/
import Marginalia.Proofs.Association.Stream
import Marginalia.Proofs.Span.Partition
import Marginalia.Proofs.Token.Returns

namespace Marginalia

-- ======================================================= code tokens

/-- White space that is no word character does not stand in code tokens. -/
theorem codeTokens_avoid {b : Char} (hblank : Text.isBlank b = true)
    (hword : Text.isWordChar b = false) (start : Nat) (cs : List Char) :
    ∀ t ∈ codeTokens start cs, b ∉ t.text.toList := by
  fun_induction codeTokens start cs with
  | case1 start =>
      intro t ht
      cases ht
  | case2 start c cs hc ih => exact ih
  | case3 start c cs hc kind more hat ih =>
      intro t ht
      rcases List.mem_cons.1 ht with rfl | ht
      · have havoids := tokenAt_avoids hblank hword c cs
        rw [hat] at havoids
        rw [String.toList_ofList, List.mem_cons, not_or]
        refine ⟨?_, havoids⟩
        rintro rfl
        exact hc hblank
      · exact ih t ht

/-- Each visible character of a stretch of code is in one of its tokens. -/
theorem codeTokens_cover (start : Nat) (cs : List Char) :
    ∀ i, Text.VisibleAt cs i →
      ∃ t ∈ codeTokens start cs, t.start ≤ start + i ∧ start + i < t.stop := by
  fun_induction codeTokens start cs with
  | case1 start =>
      intro i hi
      exact absurd hi.lt (Nat.not_lt_zero i)
  | case2 start c cs hblank ih =>
      intro i hi
      cases i with
      | zero =>
          obtain ⟨d, hd, hvisible⟩ := hi
          rw [← Option.some.inj hd, hblank] at hvisible
          cases hvisible
      | succ i =>
          obtain ⟨t, ht, hstart, hstop⟩ := ih i hi
          exact ⟨t, ht, by omega, by omega⟩
  | case3 start c cs hblank kind more hat ih =>
      intro i hi
      have hlt := hi.lt
      rw [List.length_cons] at hlt
      by_cases hfirst : i ≤ more
      · refine ⟨_, List.mem_cons_self, Nat.le_add_right _ _, ?_⟩
        simp only [Token.stop, String.length_ofList, List.length_cons,
          List.length_take]
        omega
      · obtain ⟨j, rfl⟩ : ∃ j, i = more + j + 1 := ⟨i - more - 1, by omega⟩
        obtain ⟨d, hd, hvisible⟩ := hi
        rw [List.getElem?_cons_succ, ← List.getElem?_drop] at hd
        obtain ⟨t, ht, hstart, hstop⟩ := ih j ⟨d, hd, hvisible⟩
        exact ⟨t, List.mem_cons_of_mem _ ht, by omega, by omega⟩

-- ================================================ ends of directives

/-- A logical line ends with its text or in front of a line end. -/
theorem logicalLineLength_ends (cs : List Char) :
    ∀ (before : Char) {c : Char}, cs[logicalLineLength before cs]? = some c →
      c = '\n' ∨ c = '\r' := by
  induction cs with
  | nil =>
      intro before c h
      cases h
  | cons d cs ih =>
      intro before c h
      rw [logicalLineLength] at h
      split at h
      · next hbreak =>
        rw [Bool.and_eq_true, beq_iff_eq] at hbreak
        exact Or.inl ((Option.some.inj h).symm.trans hbreak.1)
      · split at h
        · next hreturn =>
          rw [Bool.and_eq_true, beq_iff_eq] at hreturn
          exact Or.inr ((Option.some.inj h).symm.trans hreturn.1)
        · exact ih d h

theorem Token.directive_ends {text : List Char} {sign : Token} {c : Char}
    (h : text[(sign.directive text).stop]? = some c) : c = '\n' ∨ c = '\r' := by
  rw [Token.directive_stop, ← List.getElem?_drop] at h
  exact logicalLineLength_ends _ _ h

/-- A token without line ends that starts before the end of a directive does
not go past it. -/
theorem Token.stop_le_directive {text : List Char} {t sign : Token}
    (hstands : t.text.toList <+: text.drop t.start)
    (hline : '\n' ∉ t.text.toList) (hreturn : '\r' ∉ t.text.toList)
    (hlt : t.start < (sign.directive text).stop) :
    t.stop ≤ (sign.directive text).stop := by
  by_contra hover
  rw [Token.stop, ← String.length_toList] at hover
  obtain ⟨i, hi⟩ := Nat.exists_eq_add_of_le (Nat.le_of_lt hlt)
  have hlength : i < t.text.toList.length := by omega
  have hat : text[(sign.directive text).stop]? = some t.text.toList[i] := by
    rw [hi, ← List.getElem?_drop, ← List.getElem?_eq_getElem hlength]
    obtain ⟨rest, hrest⟩ := hstands
    rw [← hrest, List.getElem?_append_left hlength]
  rcases Token.directive_ends hat with h | h
  · exact hline (h ▸ List.getElem_mem hlength)
  · exact hreturn (h ▸ List.getElem_mem hlength)

-- =============================================== gathered directives

theorem Ordered.cons {low middle high : Nat} {t : Token} {tokens : List Token}
    (hlow : low ≤ t.start) (hlt : t.start < t.stop) (hle : t.stop ≤ middle)
    (hhigh : t.stop ≤ high) (h : Ordered middle high tokens) :
    Ordered low high (t :: tokens) := by
  refine ⟨fun u hu => ?_, List.pairwise_cons.2 ⟨fun u hu => ?_, h.2⟩⟩
  · rcases List.mem_cons.1 hu with rfl | hu
    · exact ⟨hlow, hlt, hhigh⟩
    · obtain ⟨h1, h2, h3⟩ := h.1 u hu
      omega
  · exact Nat.le_trans hle (h.1 u hu).1

theorem Ordered.of_cons {low high : Nat} {t : Token} {tokens : List Token}
    (h : Ordered low high (t :: tokens)) :
    (low ≤ t.start ∧ t.start < t.stop ∧ t.stop ≤ high)
      ∧ Ordered t.stop high tokens := by
  obtain ⟨hbehind, hpairs⟩ := List.pairwise_cons.1 h.2
  refine ⟨h.1 t List.mem_cons_self, fun u hu => ?_, hpairs⟩
  obtain ⟨-, h2, h3⟩ := h.1 u (List.mem_cons_of_mem t hu)
  exact ⟨hbehind u hu, h2, h3⟩

/-- At most one token is at a place. -/
theorem Ordered.eq_of_meet {low high : Nat} {tokens : List Token}
    (h : Ordered low high tokens) {a b : Token} (ha : a ∈ tokens)
    (hb : b ∈ tokens) {offset : Nat} (hina : a.start ≤ offset ∧ offset < a.stop)
    (hinb : b.start ≤ offset ∧ offset < b.stop) :
    a = b := by
  by_contra hne
  rcases apart_of_ne h.2 ha hb hne with hab | hba
  · omega
  · omega

/-- Directives lie behind what they follow and in front of what follows them. -/
theorem gatherDirectives_ordered {text : List Char} (directiveEnd : Nat)
    (tokens : List Token) :
    ∀ low, Ordered low text.length tokens →
      Ordered (max low directiveEnd) text.length
        (gatherDirectives text directiveEnd tokens) := by
  fun_induction gatherDirectives text directiveEnd tokens with
  | case1 directiveEnd => exact fun low _ => .nil _ _
  | case2 directiveEnd token tokens hinside ih =>
      intro low hordered
      obtain ⟨⟨hlow, hlt, hstop⟩, hbehind⟩ := hordered.of_cons
      exact (ih token.stop hbehind).mono (by omega) (Nat.le_refl _)
  | case3 directiveEnd token tokens hinside hdirective directive ih =>
      intro low hordered
      obtain ⟨⟨hlow, hlt, hstop⟩, hbehind⟩ := hordered.of_cons
      have hstart : directive.start = token.start := rfl
      have hlength : directive.start < directive.stop := by
        simp only [directive, Token.directive_stop, hstart]
        omega
      have hend : directive.stop ≤ text.length :=
        Token.directive_stop_le (by omega)
      exact Ordered.cons (by omega) hlength (Nat.le_max_right _ _) hend
        (ih token.stop hbehind)
  | case4 directiveEnd token tokens hinside hdirective ih =>
      intro low hordered
      obtain ⟨⟨hlow, hlt, hstop⟩, hbehind⟩ := hordered.of_cons
      exact Ordered.cons (by omega) hlt (Nat.le_max_left _ _) hstop
        (ih token.stop hbehind)

/-- A token behind the last directive is kept or starts in a later one. -/
theorem gatherDirectives_keep {text : List Char} (directiveEnd : Nat)
    (tokens : List Token) :
    (tokens.Pairwise fun a b => a.start ≤ b.start) → ∀ t ∈ tokens,
      directiveEnd ≤ t.start →
      t ∈ gatherDirectives text directiveEnd tokens
        ∨ ∃ sign : Token, sign.directive text
          ∈ gatherDirectives text directiveEnd tokens
          ∧ sign.start ≤ t.start ∧ t.start < (sign.directive text).stop := by
  fun_induction gatherDirectives text directiveEnd tokens with
  | case1 directiveEnd =>
      intro _ t ht
      cases ht
  | case2 directiveEnd token tokens hinside ih =>
      intro hpairs t ht hbehind
      rcases List.mem_cons.1 ht with rfl | ht
      · omega
      · exact ih (List.pairwise_cons.1 hpairs).2 t ht hbehind
  | case3 directiveEnd token tokens hinside hdirective directive ih =>
      intro hpairs t ht hbehind
      obtain ⟨hfirst, hpairs⟩ := List.pairwise_cons.1 hpairs
      have hstart : token.start ≤ t.start := by
        rcases List.mem_cons.1 ht with rfl | ht
        · exact Nat.le_refl _
        · exact hfirst t ht
      by_cases hlt : t.start < directive.stop
      · exact Or.inr ⟨token, List.mem_cons_self, hstart, hlt⟩
      · rcases List.mem_cons.1 ht with rfl | ht
        · -- the number sign is in its own directive
          simp only [directive, Token.directive_stop] at hlt
          omega
        · refine (ih hpairs t ht (by omega)).imp (List.mem_cons_of_mem _) ?_
          rintro ⟨sign, hsign, hin⟩
          exact ⟨sign, List.mem_cons_of_mem _ hsign, hin⟩
  | case4 directiveEnd token tokens hinside hdirective ih =>
      intro hpairs t ht hbehind
      rcases List.mem_cons.1 ht with rfl | ht
      · exact Or.inl List.mem_cons_self
      · refine (ih (List.pairwise_cons.1 hpairs).2 t ht hbehind).imp
          (List.mem_cons_of_mem _) ?_
        rintro ⟨sign, hsign, hin⟩
        exact ⟨sign, List.mem_cons_of_mem _ hsign, hin⟩

-- ============================================== the tokens of a text

/-- The tokens of a text lie one behind the other. -/
theorem tokens_ordered (rules : Rules) (text : List Char) :
    Ordered 0 text.length (rules.tokens text (rules.spans text)) := by
  have hordered := (spans_tiles rules text).tokens_ordered
  rw [spans_end] at hordered
  unfold Rules.tokens
  simp only
  split
  · exact gatherDirectives_ordered 0 _ 0 hordered
  · exact hordered

/-- A token of a span is kept or starts in a directive. -/
theorem tokens_keep (rules : Rules) (text : List Char) {t : Token}
    (ht : t ∈ (rules.spans text).flatMap Span.tokens) :
    t ∈ rules.tokens text (rules.spans text)
      ∨ ∃ sign : Token, sign.directive text
        ∈ rules.tokens text (rules.spans text)
        ∧ sign.start ≤ t.start ∧ t.start < (sign.directive text).stop := by
  obtain ⟨hbounds, hpairs⟩ := (spans_tiles rules text).tokens_ordered
  unfold Rules.tokens
  simp only
  split
  · refine gatherDirectives_keep 0 _
      (hpairs.imp_of_mem fun {a b} ha _ hab => ?_) t ht (Nat.zero_le _)
    have hlt := (hbounds a ha).2.1
    omega
  · exact Or.inl ht

/-- What tokens are to the spans of a text. They lie one behind the other and
stand in the text; a visible character of code is in one of them; a literal
is one unless it starts in a directive; and nothing but directives reaches into
comments. -/
structure Tokenizes (text : List Char) (spans : List Span)
    (tokens : List Token) : Prop where
  ordered : Ordered 0 text.length tokens
  slices : ∀ t ∈ tokens, t.text.toList = Text.slice text t.start t.stop
  code : ∀ span ∈ spans, span.kind = .code → ∀ offset,
    span.start ≤ offset → offset < span.stop →
    Text.VisibleAt text offset → ∃! t,
      t ∈ tokens ∧ t.start ≤ offset ∧ offset < t.stop
  literals : ∀ span ∈ spans, span.kind.isLiteral = true →
    (⟨.literal, span.start, span.text⟩ ∈ tokens
      ↔ ¬ ∃ d ∈ tokens, d.kind = .directive ∧ d.start ≤ span.start
        ∧ span.start < d.stop)
  comments : ∀ span ∈ spans, ∀ kind, span.kind = .comment kind → ∀ t ∈ tokens,
    t.kind ≠ .directive → t.stop ≤ span.start ∨ span.stop ≤ t.start

section Covering

variable {rules : Rules} {text : List Char} {span : Span}

/-- A visible character of code is in one token. -/
theorem tokens_cover (hspan : span ∈ rules.spans text)
    (hcode : span.kind = .code) {offset : Nat} (hstart : span.start ≤ offset)
    (hstop : offset < span.stop) (hvisible : Text.VisibleAt text offset) :
    ∃! t, t ∈ rules.tokens text (rules.spans text) ∧ t.start ≤ offset
      ∧ offset < t.stop := by
  have htokens : span.tokens = codeTokens span.start span.chars := by
    rw [Span.tokens, hcode]
  obtain ⟨i, rfl⟩ := Nat.exists_eq_add_of_le hstart
  have hinside : Text.VisibleAt span.chars i := by
    obtain ⟨c, hc, hvisible⟩ := hvisible
    refine ⟨c, ?_, hvisible⟩
    rw [Span.stop] at hstop
    rw [← hc, ← List.getElem?_drop, spans_drop hspan,
      List.getElem?_append_left (by omega)]
  obtain ⟨t, ht, hlow, hhigh⟩ :=
    codeTokens_cover span.start span.chars i hinside
  have hmem : t ∈ (rules.spans text).flatMap Span.tokens :=
    List.mem_flatMap.2 ⟨span, hspan, htokens ▸ ht⟩
  have hcovered : ∃ t ∈ rules.tokens text (rules.spans text),
      t.start ≤ span.start + i ∧ span.start + i < t.stop := by
    rcases tokens_keep rules text hmem with hkept | ⟨sign, hsign, hbefore,
      hbehind⟩
    · exact ⟨t, hkept, hlow, hhigh⟩
    · have hinside :=
        Token.stop_le_directive (spanTokens_stand rules text t hmem)
        (codeTokens_avoid (by decide) Text.isWordChar_newline _ _ t ht)
        (codeTokens_avoid (by decide) Text.isWordChar_return _ _ t ht) hbehind
      have hsame : (sign.directive text).start = sign.start := rfl
      exact ⟨sign.directive text, hsign, by omega, by omega⟩
  obtain ⟨t, ht, hin⟩ := hcovered
  refine ⟨t, ⟨ht, hin⟩, fun u hu => ?_⟩
  exact (tokens_ordered rules text).eq_of_meet hu.1 ht hu.2 hin

/-- A literal is a token unless it starts in a directive. -/
theorem tokens_literal (hspan : span ∈ rules.spans text)
    (hliteral : span.kind.isLiteral = true) :
    ⟨.literal, span.start, span.text⟩ ∈ rules.tokens text (rules.spans text)
      ↔ ¬ ∃ d ∈ rules.tokens text (rules.spans text),
        d.kind = .directive ∧ d.start ≤ span.start ∧ span.start < d.stop := by
  have htokens : span.tokens = [⟨.literal, span.start, span.text⟩] := by
    unfold Span.tokens
    split
    · next hkind =>
      rw [hkind] at hliteral
      cases hliteral
    · rfl
    · next hkind =>
      rw [hkind] at hliteral
      cases hliteral
  have hmem : ⟨.literal, span.start, span.text⟩
      ∈ (rules.spans text).flatMap Span.tokens :=
    List.mem_flatMap.2 ⟨span,
      hspan, by rw [htokens]; exact List.mem_singleton_self _⟩
  constructor
  · rintro hkept ⟨d, hd, hkind, hin⟩
    have hordered := tokens_ordered rules text
    have heq :=
      hordered.eq_of_meet hkept hd ⟨Nat.le_refl _, (hordered.1 _ hkept).2.1⟩ hin
    rw [← heq] at hkind
    cases hkind
  · intro hfree
    refine (tokens_keep rules text hmem).resolve_right ?_
    rintro ⟨sign, hsign, hin⟩
    exact hfree ⟨sign.directive text, hsign, rfl, hin⟩

/-- Nothing but directives reaches into comments. -/
theorem tokens_beside_comment (hspan : span ∈ rules.spans text)
    {kind : CommentKind} (hkind : span.kind = .comment kind) {t : Token}
    (ht : t ∈ rules.tokens text (rules.spans text))
    (hother : t.kind ≠ .directive) :
    t.stop ≤ span.start ∨ span.stop ≤ t.start := by
  have htiles := spans_tiles rules text
  obtain ⟨home, hhome, ht⟩ :=
    List.mem_flatMap.1 ((tokens_mem ht).resolve_left hother)
  have hne : home ≠ span := by
    rintro rfl
    rw [Span.tokens, hkind] at ht
    cases ht
  have hlength : home.chars ≠ [] := by
    have hlt := (htiles.mem hhome).2.1
    rw [Span.stop] at hlt
    exact List.ne_nil_of_length_pos (by omega)
  obtain ⟨hlow, -, hhigh⟩ := (home.tokens_ordered hlength).1 t ht
  rcases apart_of_ne htiles.pairwise hhome hspan hne with h | h
  · exact Or.inl (Nat.le_trans hhigh h)
  · exact Or.inr (Nat.le_trans h hlow)

end Covering

/-- The tokens of a text cover its code, and its stream has each comment and
each token once, in the order in which they start. -/
theorem tokens_tokenize (dialect : Dialect) (text : List Char) :
    let rules := dialect.rules
    let tokens := rules.tokens text (rules.spans text)
    Tokenizes text (rules.spans text) tokens
      ∧ (rules.items text).Perm
        ((rules.commentsOf text).map .comment ++ tokens.map .token)
      ∧ (rules.items text).Pairwise fun a b => a.start < b.start := by
  have hplain : dialect.rules.isPlain = true := by
    cases dialect <;> decide
  refine ⟨⟨tokens_ordered _ text, fun t ht => ?_, ?_, ?_, ?_⟩,
    List.merge_perm_append _, items_increasing hplain text⟩
  · have hstands := tokens_stand dialect.rules text t ht
    rw [Text.slice, Token.stop, Nat.add_sub_cancel_left, ← String.length_toList]
    exact List.prefix_iff_eq_take.1 hstands
  · intro span hspan hcode offset hstart hstop hvisible
    exact tokens_cover hspan hcode hstart hstop hvisible
  · intro span hspan hliteral
    exact tokens_literal hspan hliteral
  · intro span hspan kind hkind t ht hother
    exact tokens_beside_comment hspan hkind ht hother

end Marginalia
