/-
The scopes around a place, and the declaration they belong to.

A scope that a declaration opened remembers the declaration with the path
it had. `Nested` says that this path is the one of the levels below, so
that the stack can be read back from any declaration on it: in front of it
stands its own path, behind it only blocks (`enclosingSite_some`). Where no
level has a declaration the whole stack is blocks (`enclosingSite_none`).
-/
import Marginalia.Proofs.Scope.Step

namespace Marginalia

/-- Every declaration on the stack has the path of the levels below it. -/
def Nested : List Level → Prop
  | [] => True
  | level :: levels =>
    (∀ site, level.opening = .declaration site → site.path = pathOf levels)
      ∧ Nested levels

/-- The body of a declaration is no block. -/
theorem DeclarationKind.scopeKind_ne_block (kind : DeclarationKind) :
    kind.scopeKind ≠ .block := by
  cases kind <;> decide

namespace Tracker

/-- What opens a scope is a declaration of the statement in front of it, with
the scopes around it. -/
theorem opened_path {rules : Rules} {lines : Text.Lines} {tracker : Tracker}
    {token : Token} {site : Site}
    (h : tracker.opened rules lines token = .declaration site) :
    tracker.declared? rules lines .body = some site
      ∧ site.path = pathOf tracker.levels := by
  unfold opened at h
  cases hd : tracker.declared? rules lines .body with
  | none => rw [hd] at h; cases h
  | some declared =>
      rw [hd] at h
      injection h with hs
      subst hs
      refine ⟨rfl, ?_⟩
      rw [declared?_path hd, path_eq]

/-- Nesting is kept by every token. -/
theorem feedToken_nested {rules : Rules} {lines : Text.Lines}
    {tracker : Tracker} (token : Token) (h : Nested tracker.levels) :
    Nested (tracker.feedToken rules lines token).tracker.levels := by
  have hstep := feedToken_step rules lines tracker token
  generalize tracker.feedToken rules lines token = fed at hstep
  cases hstep with
  | directive | stray | ended => exact h
  | literal | code => simpa only [append_levels] using h
  | opening => exact ⟨fun site hs => (opened_path hs).2, h⟩
  | resume _ level levels hl | closing _ level levels hl =>
      rw [hl] at h
      exact h.2

end Tracker

-- ============================================ reading the stack back

/-- The refs behind the file's, of a stack on which nothing is declared. -/
theorem pathOf_blocks {levels : List Level}
    (h : levels.findSome? (·.opening.site?) = none) :
    ∀ ref ∈ (pathOf levels).tail, ref.kind = .block := by
  intro ref href
  simp only [pathOf, List.tail_cons, List.mem_map, List.mem_reverse] at href
  obtain ⟨level, hlevel, rfl⟩ := href
  have hnone := List.findSome?_eq_none_iff.1 h level hlevel
  cases ho : level.opening with
  | declaration site => rw [ho] at hnone; cases hnone
  | block brace => rfl

/-- The innermost declaration on the stack parts the path: its own path, the
scope it opened, and blocks. -/
theorem pathOf_declaration (levels : List Level) :
    ∀ site, Nested levels → levels.findSome? (·.opening.site?) = some site →
      ∃ blocks, pathOf levels = site.path ++ site.ref :: blocks
        ∧ ∀ ref ∈ blocks, ref.kind = .block := by
  induction levels with
  | nil => intro site _ h; cases h
  | cons level levels ih =>
      intro site hnested h
      rw [pathOf_cons]
      rw [List.findSome?_cons] at h
      cases ho : level.opening with
      | declaration declared =>
          rw [ho] at h
          simp only [Opening.site?, Option.some.injEq] at h
          subst h
          refine ⟨[], ?_, fun ref href => absurd href (by simp)⟩
          rw [hnested.1 declared ho]
          rfl
      | block brace =>
          rw [ho] at h
          simp only [Opening.site?] at h
          obtain ⟨blocks, hpath, hblocks⟩ := ih site hnested.2 h
          refine ⟨blocks ++ [⟨.block, ""⟩], ?_, ?_⟩
          · rw [hpath, List.append_assoc, List.cons_append]
            rfl
          · intro ref href
            rcases List.mem_append.1 href with href | href
            · exact hblocks ref href
            · rw [List.mem_singleton.1 href]

namespace Tracker

/-- The path around a place that has a declaration around it. -/
theorem enclosingSite_some {tracker : Tracker} (hnested : Nested tracker.levels)
    {site : Site} (h : tracker.enclosingSite = some site) :
    ∃ blocks, tracker.path = site.path ++ site.ref :: blocks
      ∧ ∀ ref ∈ blocks, ref.kind = .block := by
  rw [path_eq]
  exact pathOf_declaration tracker.levels site hnested h

/-- A place has no declaration around it exactly when every scope inside the
file is a block. -/
theorem enclosingSite_none {tracker : Tracker}
    (hnested : Nested tracker.levels) :
    tracker.enclosingSite = none ↔ ∀ ref ∈ tracker.path.tail,
      ref.kind = .block := by
  constructor
  · intro h
    rw [path_eq]
    exact pathOf_blocks h
  · intro h
    cases hs : tracker.enclosingSite with
    | none => rfl
    | some site =>
        obtain ⟨blocks, hpath, -⟩ := enclosingSite_some hnested hs
        rw [hpath] at h
        -- the declaration's own scope stands behind the file's
        have hfile : site.path ≠ [] := by
          intro hnil
          rw [path_eq, hnil, List.nil_append] at hpath
          injection hpath with hhead
          have hkind := congrArg ScopeRef.kind hhead
          simp only [Site.ref, Frame.file, Frame.ref] at hkind
          cases hk : site.kind <;> rw [hk] at hkind <;> cases hkind
        have hmem : site.ref ∈ (site.path ++ site.ref :: blocks).tail := by
          rw [List.tail_append_of_ne_nil hfile]
          simp
        exact absurd (h site.ref hmem) site.kind.scopeKind_ne_block

end Tracker

end Marginalia
