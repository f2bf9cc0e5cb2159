/-
Tokens in the order of their text.

The tokens of a stretch of code lie inside it, one behind the other; a
literal is its own token. Putting directives together drops tokens and
lengthens some, but a directive starts where its number sign does, so the
starts of a text's tokens are among those of the tokens of its spans and in
the same order.
-/
import Marginalia.Proofs.Span.Tiling
import Marginalia.Proofs.Text.Lines
import Marginalia.Token.OfSpans

namespace Marginalia

-- ======================================================== code spans

/-- Tokens that lie one behind the other between two offsets. -/
def Ordered (low high : Nat) (tokens : List Token) : Prop :=
  (∀ t ∈ tokens, low ≤ t.start ∧ t.start < t.stop ∧ t.stop ≤ high)
    ∧ tokens.Pairwise fun a b => a.stop ≤ b.start

theorem Ordered.nil (low high : Nat) : Ordered low high [] :=
  ⟨fun t ht => absurd ht (by simp), .nil⟩

theorem Ordered.mono {low low' high high' : Nat} {tokens : List Token}
    (h : Ordered low high tokens) (hlow : low' ≤ low) (hhigh : high ≤ high') :
    Ordered low' high' tokens := by
  refine ⟨fun t ht => ?_, h.2⟩
  obtain ⟨h1, h2, h3⟩ := h.1 t ht
  omega

/-- Stretches of tokens that lie one behind the other join into one. -/
theorem Ordered.append {low middle high : Nat} {front back : List Token}
    (hfront : Ordered low middle front) (hback : Ordered middle high back)
    (hlow : low ≤ middle) (hhigh : middle ≤ high) :
    Ordered low high (front ++ back) := by
  refine ⟨fun t ht => ?_, ?_⟩
  · rcases List.mem_append.1 ht with ht | ht
    · obtain ⟨h1, h2, h3⟩ := hfront.1 t ht
      omega
    · obtain ⟨h1, h2, h3⟩ := hback.1 t ht
      omega
  · refine List.pairwise_append.2 ⟨hfront.2, hback.2, fun a ha b hb => ?_⟩
    obtain ⟨-, -, ha3⟩ := hfront.1 a ha
    obtain ⟨hb1, -, -⟩ := hback.1 b hb
    omega

theorem codeTokens_ordered (start : Nat) (cs : List Char) :
    Ordered start (start + cs.length) (codeTokens start cs) := by
  fun_induction codeTokens start cs with
  | case1 start => exact .nil _ _
  | case2 start c cs hblank ih =>
      rw [List.length_cons]
      exact ih.mono (by omega) (by omega)
  | case3 start c cs hblank kind more hat ih =>
      have hstop :
          (⟨kind, start, String.ofList (c :: cs.take more)⟩ : Token).stop
          = start + (min more cs.length + 1) := by
        simp only [Token.stop, String.length_ofList, List.length_cons,
          List.length_take]
      have hfirst : Ordered start (start + (min more cs.length + 1))
          [⟨kind, start, String.ofList (c :: cs.take more)⟩] := by
        refine ⟨fun t ht => ?_, List.pairwise_singleton _ _⟩
        rw [List.mem_singleton] at ht
        subst ht
        rw [hstop]
        exact ⟨Nat.le_refl _, Nat.lt_add_of_pos_right (Nat.succ_pos _),
          Nat.le_refl _⟩
      rw [List.length_drop] at ih
      by_cases hmore : more ≤ cs.length
      · rw [List.length_cons]
        exact hfirst.append (ih.mono (by omega) (by omega)) (by omega)
          (by omega)
      · -- nothing is left behind the token
        have hrest : cs.drop more = [] := List.drop_eq_nil_of_le (by omega)
        rw [hrest, codeTokens, List.length_cons]
        exact hfirst.mono (Nat.le_refl _) (by omega)

/-- White space has no tokens. -/
theorem codeTokens_blank {cs : List Char}
    (h : ∀ c ∈ cs, Text.isBlank c = true) :
    ∀ start, codeTokens start cs = [] := by
  induction cs with
  | nil => intro start; rw [codeTokens]
  | cons c cs ih =>
      intro start
      rw [codeTokens, if_pos (h c List.mem_cons_self)]
      exact ih (fun d hd => h d (List.mem_cons_of_mem c hd)) (start + 1)

/-- The tokens of a span lie in it. -/
theorem Span.tokens_ordered (span : Span) (h : span.chars ≠ []) :
    Ordered span.start span.stop span.tokens := by
  unfold Span.tokens
  split
  · exact codeTokens_ordered span.start span.chars
  · refine ⟨fun t ht => ?_, List.pairwise_singleton _ _⟩
    rw [List.mem_singleton] at ht
    subst ht
    have hpos : 0 < span.chars.length := List.length_pos_iff.2 h
    simp only [Token.stop, Span.stop, Span.text, String.length_ofList]
    omega
  · exact .nil _ _

/-- The tokens of a tiling lie one behind the other. -/
theorem Tiles.tokens_ordered {offset : Nat} {spans : List Span}
    (h : Tiles offset spans) :
    Ordered offset (tilesEnd offset spans) (spans.flatMap Span.tokens) := by
  induction spans generalizing offset with
  | nil => exact .nil _ _
  | cons span spans ih =>
      obtain ⟨rfl, hne, htail⟩ := h
      rw [List.flatMap_cons, tilesEnd_cons]
      have hle : span.start ≤ span.stop := Nat.le_add_right _ _
      exact (span.tokens_ordered hne).append (ih htail) hle tilesEnd_le

-- ======================================================== directives

/-- Directives start where one of the tokens does, and keep their order. -/
theorem gatherDirectives_starts (text : List Char) (directiveEnd : Nat)
    (tokens : List Token) :
    ((gatherDirectives text directiveEnd tokens).map (·.start)).Sublist
      (tokens.map (·.start)) := by
  fun_induction gatherDirectives text directiveEnd tokens with
  | case1 => exact List.Sublist.refl _
  | case2 directiveEnd token tokens hinside ih => exact ih.cons _
  | case3 directiveEnd token tokens hinside hdirective directive ih =>
      exact ih.cons_cons _
  | case4 directiveEnd token tokens hinside hdirective ih =>
      exact ih.cons_cons _

/-- Of the tokens some are kept, and some number signs become directives. -/
theorem mem_gatherDirectives {text : List Char} {directiveEnd : Nat}
    {tokens : List Token} {t : Token}
    (h : t ∈ gatherDirectives text directiveEnd tokens) :
    t ∈ tokens ∨ ∃ token ∈ tokens,
      token.text = "#" ∧ t = token.directive text := by
  fun_induction gatherDirectives text directiveEnd tokens with
  | case1 => cases h
  | case2 directiveEnd token tokens hinside ih =>
      rcases ih h with h | ⟨sign, hsign, htext⟩
      · exact Or.inl (List.mem_cons_of_mem token h)
      · exact Or.inr ⟨sign, List.mem_cons_of_mem token hsign, htext⟩
  | case3 directiveEnd token tokens hinside hdirective directive ih =>
      rcases List.mem_cons.1 h with rfl | h
      · simp only [Bool.and_eq_true, beq_iff_eq] at hdirective
        exact Or.inr ⟨token, List.mem_cons_self, hdirective.1.1, rfl⟩
      · rcases ih h with h | ⟨sign, hsign, htext⟩
        · exact Or.inl (List.mem_cons_of_mem token h)
        · exact Or.inr ⟨sign, List.mem_cons_of_mem token hsign, htext⟩
  | case4 directiveEnd token tokens hinside hdirective ih =>
      rcases List.mem_cons.1 h with rfl | h
      · exact Or.inl List.mem_cons_self
      · rcases ih h with h | ⟨sign, hsign, htext⟩
        · exact Or.inl (List.mem_cons_of_mem token h)
        · exact Or.inr ⟨sign, List.mem_cons_of_mem token hsign, htext⟩

/-- A token of a text is one of its spans, or a directive that starts with a
number sign among them. -/
theorem mem_tokens {rules : Rules} {text : List Char} {spans : List Span}
    {t : Token} (h : t ∈ rules.tokens text spans) :
    t ∈ spans.flatMap Span.tokens
      ∨ ∃ token ∈ spans.flatMap Span.tokens,
        token.text = "#" ∧ t = token.directive text := by
  unfold Rules.tokens at h
  simp only at h
  split at h
  · exact mem_gatherDirectives h
  · exact Or.inl h

/-- What is no directive is a token of one of the spans. -/
theorem tokens_mem {rules : Rules} {text : List Char} {spans : List Span}
    {t : Token} (h : t ∈ rules.tokens text spans) :
    t.kind = .directive ∨ t ∈ spans.flatMap Span.tokens := by
  rcases mem_tokens h with h | ⟨token, htoken, hsign, rfl⟩
  · exact .inr h
  · exact .inl rfl

/-- The starts of a text's tokens are among those of its spans' tokens. -/
theorem tokens_starts (rules : Rules) (text : List Char) (spans : List Span) :
    ((rules.tokens text spans).map (·.start)).Sublist
      ((spans.flatMap Span.tokens).map (·.start)) := by
  unfold Rules.tokens
  simp only
  split
  · exact gatherDirectives_starts text 0 _
  · exact List.Sublist.refl _

/-- A token of a text starts where one of its spans' tokens does. -/
theorem tokens_start_mem {rules : Rules} {text : List Char} {spans : List Span}
    {t : Token} (h : t ∈ rules.tokens text spans) :
    ∃ t₀ ∈ spans.flatMap Span.tokens, t₀.start = t.start := by
  have hmem := (tokens_starts rules text spans).subset (List.mem_map_of_mem h)
  obtain ⟨t₀, ht₀, hstart⟩ := List.mem_map.1 hmem
  exact ⟨t₀, ht₀, hstart⟩

/-- The tokens of a text start one behind the other. -/
theorem tokens_increasing (rules : Rules) (text : List Char) :
    ((rules.tokens text (rules.spans text)).map (·.start)).Pairwise
      (· < ·) := by
  refine List.Pairwise.sublist (tokens_starts rules text (rules.spans text)) ?_
  have hordered := (spans_tiles rules text).tokens_ordered
  refine List.pairwise_map.2 (hordered.2.imp_of_mem fun {a b} ha _ hab => ?_)
  obtain ⟨-, hlt, -⟩ := hordered.1 a ha
  omega

end Marginalia
