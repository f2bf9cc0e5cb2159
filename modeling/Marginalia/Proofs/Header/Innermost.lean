/-
Where a recognised declaration starts.

A header is analysed in its innermost expression, which is what is left of
the header from some token on. So the offset that the analysis reports is
that of a token of the header, and with the analysis' start one also has
the token it came from.
-/
import Marginalia.Header.Analysis

namespace Marginalia

/-- What follows the innermost open bracket is one of the rests remembered so
far, or a rest of what is still to be read. -/
theorem innermostFrom_suffix (ts : List Token) :
    ∀ (opened : List (List Token)) (inside : List Token),
      innermostFrom opened ts = some inside →
      inside ∈ opened ∨ inside <:+ ts := by
  induction ts with
  | nil =>
      intro opened inside h
      exact Or.inl (List.mem_of_mem_head? h)
  | cons t ts ih =>
      intro opened inside h
      rw [innermostFrom] at h
      split at h
      · rcases ih _ _ h with hmem | hsuf
        · rcases List.mem_cons.1 hmem with rfl | hmem
          · exact Or.inr (List.suffix_cons t _)
          · exact Or.inl hmem
        · exact Or.inr (hsuf.trans (List.suffix_cons t ts))
      · split at h
        · rcases ih _ _ h with hmem | hsuf
          · exact Or.inl (List.mem_of_mem_tail hmem)
          · exact Or.inr (hsuf.trans (List.suffix_cons t ts))
        · rcases ih _ _ h with hmem | hsuf
          · exact Or.inl hmem
          · exact Or.inr (hsuf.trans (List.suffix_cons t ts))

/-- The last argument is what was found before, or a rest of what is still to
be read. -/
theorem lastArgument_suffix (bars : Bool) (ts : List Token) :
    ∀ (found : List Token) (depth : Nat) (inBars : Bool),
      lastArgument bars found depth inBars ts = found
        ∨ lastArgument bars found depth inBars ts <:+ ts := by
  induction ts with
  | nil => intro found depth inBars; exact Or.inl rfl
  | cons t ts ih =>
      -- every branch but the comma's goes on with the same `found`
      have hkeep : ∀ (found : List Token) (depth : Nat) (inBars : Bool),
          lastArgument bars found depth inBars ts = found
            ∨ lastArgument bars found depth inBars ts <:+ t :: ts := by
        intro found depth inBars
        rcases ih found depth inBars with h | h
        · exact Or.inl h
        · exact Or.inr (h.trans (List.suffix_cons t ts))
      intro found depth inBars
      rw [lastArgument]
      split
      · exact hkeep _ _ _
      · split
        · exact hkeep _ _ _
        · split
          · exact hkeep _ _ _
          · split
            · rcases ih ts depth inBars with h | h
              · rw [h]
                exact Or.inr (List.suffix_cons t ts)
              · exact Or.inr (h.trans (List.suffix_cons t ts))
            · exact hkeep _ _ _

/-- The innermost expression is a rest of the header. -/
theorem innermost_suffix (bars : Bool) (ts : List Token) :
    innermost bars ts <:+ ts := by
  have hinside : (innermostFrom [] ts).getD ts <:+ ts := by
    cases h : innermostFrom [] ts with
    | none => exact List.suffix_refl ts
    | some inside =>
        rcases innermostFrom_suffix ts [] inside h with hmem | hsuf
        · cases hmem
        · exact hsuf
  unfold innermost
  rcases lastArgument_suffix bars ((innermostFrom [] ts).getD ts)
    ((innermostFrom [] ts).getD ts) 0 false with h | h
  · simp only [h]
    exact hinside
  · exact h.trans hinside

/-- A declaration starts at a token of the innermost expression. -/
theorem analyzeHeader_innermost {rules : Rules} {terminator : Terminator}
    {enclosing : ScopeKind} {header : List Token} {found : HeaderMatch}
    (h : rules.analyzeHeader terminator enclosing header = some found) :
    ∃ t ∈ innermost rules.barClosures header, t.start = found.start := by
  unfold Rules.analyzeHeader at h
  cases hin : innermost rules.barClosures header with
  | nil => rw [hin] at h; cases h
  | cons first rest =>
      rw [hin] at h
      refine ⟨first, List.mem_cons_self, ?_⟩
      simp only at h
      split at h
      · cases h
      · obtain ⟨⟨shape, name⟩, -, rfl⟩ := Option.map_eq_some_iff.1 h
        rfl

/-- A declaration starts at a token of its header. -/
theorem analyzeHeader_start {rules : Rules} {terminator : Terminator}
    {enclosing : ScopeKind} {header : List Token} {found : HeaderMatch}
    (h : rules.analyzeHeader terminator enclosing header = some found) :
    ∃ t ∈ header, t.start = found.start := by
  obtain ⟨t, ht, hstart⟩ := analyzeHeader_innermost h
  exact ⟨t, (innermost_suffix rules.barClosures header).subset ht, hstart⟩

end Marginalia
