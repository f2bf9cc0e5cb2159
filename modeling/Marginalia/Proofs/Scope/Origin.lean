/-
Where the tokens of a header come from.

A header is taken up again after a body inside its parentheses, so its
tokens may wait on the stack meanwhile. `HoldsAbove` says of all tokens that
wait above some level, and of those in the header, that they have a
property; reading keeps it while that level stays.
-/
import Marginalia.Proofs.Scope.Step

namespace Marginalia

/-- The header, and every header on the stack above the given levels, has
only tokens with the property. -/
def HoldsAbove (P : Token → Prop) (below : List Level) (tracker : Tracker) :
    Prop :=
  (∀ t ∈ tracker.header, P t)
    ∧ ∃ above, tracker.levels = above ++ below ∧ ∀ level ∈ above,
      ∀ t ∈ level.header, P t

/-- Before anything is read no token waits. -/
theorem HoldsAbove.empty (P : Token → Prop) : HoldsAbove P [] ({} : Tracker) :=
  ⟨fun t ht => absurd ht (by simp), [], rfl,
    fun level hl => absurd hl (by simp)⟩

namespace Tracker

/-- A token of a header that took one up was there before or is that one. -/
theorem mem_append_header {tracker : Tracker} {token t : Token}
    (h : t ∈ (tracker.append token).header) :
    t ∈ tracker.header ∨ t = token := by
  simp only [append] at h
  simpa using List.mem_of_mem_drop h

/-- The tokens above a level that stays have the property as long as those
that are read do. -/
theorem FeedStep.holdsAbove {rules : Rules} {lines : Text.Lines}
    {tracker : Tracker} {token : Token} {fed : Tracked}
    (hstep : FeedStep rules lines tracker token fed) {P : Token → Prop}
    {below : List Level} (htoken : P token)
    (hbelow : below <:+ fed.tracker.levels) (h : HoldsAbove P below tracker) :
    HoldsAbove P below fed.tracker := by
  obtain ⟨hheader, above, hlevels, habove⟩ := h
  have hgrown : ∀ header : List Token,
      (∀ t ∈ header, P t) → ∀ t ∈ header ++ [token], P t := by
    intro header hh t ht
    rcases List.mem_append.1 ht with ht | ht
    · exact hh t ht
    · rw [List.mem_singleton.1 ht]
      exact htoken
  have happended : ∀ t ∈ (tracker.append token).header, P t := by
    intro t ht
    rcases mem_append_header ht with ht | rfl
    · exact hheader t ht
    · exact htoken
  -- a level that is closed is the first of those above
  have hpopped : ∀ (level : Level) (rest : List Level),
      tracker.levels = level :: rest →
      below <:+ rest → (∀ t ∈ level.header, P t)
        ∧ ∃ above, rest = above ++ below ∧ ∀ level ∈ above, ∀ t ∈ level.header,
          P t := by
    intro level rest hl hsuffix
    rw [hlevels] at hl
    cases above with
    | nil =>
        rw [List.nil_append] at hl
        have hlength := hsuffix.length_le
        rw [hl, List.length_cons] at hlength
        omega
    | cons first above =>
        rw [List.cons_append] at hl
        injection hl with hfirst hrest
        subst hfirst
        exact ⟨habove first List.mem_cons_self, above, hrest.symm,
          fun level hmem => habove level (List.mem_cons_of_mem _ hmem)⟩
  have hnone : ∀ t ∈ ([] : List Token), P t := fun t ht => absurd ht (by simp)
  cases hstep with
  | directive | ended => exact ⟨hnone, above, hlevels, habove⟩
  | literal | code =>
      simp only [HoldsAbove, append_levels]
      exact ⟨happended, above, hlevels, habove⟩
  | stray => exact ⟨hheader, above, hlevels, habove⟩
  | opening =>
      refine ⟨hnone, _ :: above, congrArg _ hlevels, fun level hmem => ?_⟩
      rcases List.mem_cons.1 hmem with rfl | hmem
      · exact hgrown _ hheader
      · exact habove level hmem
  | resume _ level rest hl =>
      obtain ⟨hfirst, hrest⟩ := hpopped level rest hl hbelow
      exact ⟨hgrown _ hfirst, hrest⟩
  | closing _ level rest hl =>
      exact ⟨hnone, (hpopped level rest hl hbelow).2⟩

end Tracker

/-- The end of a statement leaves fewer tokens. -/
theorem HoldsAbove.cleared {P : Token → Prop} {below : List Level}
    {tracker : Tracker} (h : HoldsAbove P below tracker) :
    HoldsAbove P below { tracker with header := [], parens := 0 } :=
  ⟨fun t ht => absurd ht (by simp), h.2⟩

end Marginalia
