/-
Braces and the scopes they leave open.

What a scope is called, where its header goes on and when a statement ends
are judged by headers, parentheses and line breaks. How many scopes are open
is not: it is the number of braces open, where a closing brace that closes
nothing leaves the number at zero (`openBraces`). Such braces are what the
tracker reports as it goes (`strayBraces`), and at the end it reports how many
scopes are left (`ReportsOpen`).

`CountsFrom` says this of two trackers and the braces read between them. It
is proved for one token (`feedToken_counts`) and for a line break, and it
composes; a run adds nothing to it.

No brace is stray and none is left open exactly when braces are balanced in
the sense of the grammar (`balanced_iff`). From right to left the induction
is on the number of braces, and carries the closing braces still to come.
-/
import Marginalia.Proofs.Scope.Step

namespace Marginalia

-- ============================================================ braces

inductive Brace where
  | opening
  | closing
  deriving DecidableEq, Repr

/-- The brace that a token is, and where. What stands in a literal or
directive is no brace. -/
def Token.brace? (token : Token) : Option (Brace × Nat) :=
  match token.kind with
  | .literal | .directive => none
  | _ =>
    if token.text = "\x7b" then some (.opening, token.start)
    else if token.text = "\x7d" then some (.closing, token.start)
    else none

/-- The braces open after some more, `count` being open before them. -/
def openBraces (count : Nat) : List (Brace × Nat) → Nat
  | [] => count
  | (.opening, _) :: braces => openBraces (count + 1) braces
  | (.closing, _) :: braces => openBraces (count - 1) braces

/-- Where a brace closes nothing, `count` braces being open at first. -/
def strayBraces (count : Nat) : List (Brace × Nat) → List Nat
  | [] => []
  | (.opening, _) :: braces => strayBraces (count + 1) braces
  | (.closing, offset) :: braces =>
    if count = 0 then offset :: strayBraces 0 braces
    else strayBraces (count - 1) braces

/-- Braces in two parts: the second is counted on from what the first
leaves open. -/
theorem openBraces_append (front back : List (Brace × Nat)) :
    ∀ count, openBraces count (front ++ back)
      = openBraces (openBraces count front) back := by
  induction front with
  | nil =>
      intro count
      rfl
  | cons brace front ih =>
      intro count
      obtain ⟨kind, offset⟩ := brace
      cases kind with
      | opening => exact ih (count + 1)
      | closing => exact ih (count - 1)

/-- So a brace of the second part is stray if it closes nothing of either. -/
theorem strayBraces_append (front back : List (Brace × Nat)) :
    ∀ count, strayBraces count (front ++ back)
      = strayBraces count front
        ++ strayBraces (openBraces count front) back := by
  induction front with
  | nil =>
      intro count
      rfl
  | cons brace front ih =>
      intro count
      obtain ⟨kind, offset⟩ := brace
      cases kind with
      | opening => exact ih (count + 1)
      | closing =>
          rw [List.cons_append, strayBraces, strayBraces, openBraces]
          by_cases hcount : count = 0
          · rw [if_pos hcount, if_pos hcount, hcount, ih 0]
            rfl
          · rw [if_neg hcount, if_neg hcount, ih (count - 1)]

-- =========================================================== balance

/-- Braces that match in pairs. -/
inductive Balanced : List (Brace × Nat) → Prop where
  | nil : Balanced []
  | pair {inner rest : List (Brace × Nat)} (start stop : Nat)
    (inside : Balanced inner) (behind : Balanced rest) :
    Balanced ((.opening, start) :: (inner ++ (.closing, stop) :: rest))

/-- Balanced braces change no count, whatever is open. -/
theorem Balanced.counts {braces : List (Brace × Nat)} (h : Balanced braces) :
    ∀ count, openBraces count braces = count
      ∧ strayBraces count braces = [] := by
  induction h with
  | nil =>
      intro count
      exact ⟨rfl, rfl⟩
  | @pair inner rest start stop _ _ ihinner ihrest =>
      intro count
      obtain ⟨hopen, hstray⟩ := ihinner (count + 1)
      obtain ⟨hopen', hstray'⟩ := ihrest count
      have hne : count + 1 ≠ 0 := Nat.succ_ne_zero count
      constructor
      · rw [openBraces, openBraces_append, hopen, openBraces,
          Nat.add_sub_cancel, hopen']
      · rw [strayBraces, strayBraces_append, hopen, hstray, strayBraces,
          if_neg hne, Nat.add_sub_cancel, hstray', List.nil_append]

/-- Where nothing is stray or left open, what comes before the brace that
closes the innermost open one is balanced, and all of it where none is open. -/
theorem balanced_up_to (n : Nat) :
    ∀ (braces : List (Brace × Nat)) (count : Nat), braces.length ≤ n →
      openBraces count braces = 0 → strayBraces count braces = [] →
      (count = 0 → Balanced braces)
        ∧ ∀ outer, count = outer + 1 → ∃ inner stop rest,
          braces = inner ++ (.closing, stop) :: rest ∧ Balanced inner
            ∧ openBraces outer rest = 0 ∧ strayBraces outer rest = [] := by
  induction n with
  | zero =>
      intro braces count hlength hopen _
      obtain rfl := List.length_eq_zero_iff.1 (Nat.le_zero.1 hlength)
      refine ⟨fun _ => .nil, fun outer hcount => ?_⟩
      rw [openBraces, hcount] at hopen
      cases hopen
  | succ n ih =>
      intro braces count hlength hopen hstray
      cases braces with
      | nil => exact ih [] count (Nat.zero_le n) hopen hstray
      | cons brace braces =>
          obtain ⟨kind, offset⟩ := brace
          rw [List.length_cons] at hlength
          cases kind with
          | closing =>
              rw [strayBraces] at hstray
              rw [openBraces] at hopen
              by_cases hcount : count = 0
              · rw [if_pos hcount] at hstray
                cases hstray
              · rw [if_neg hcount] at hstray
                refine ⟨fun h => absurd h hcount, ?_⟩
                rintro outer rfl
                exact ⟨[], offset, braces, rfl, .nil, hopen, hstray⟩
          | opening =>
              -- the brace that closes this one, and then what is behind it
              obtain ⟨inner, stop, rest, rfl, hinner, hopen', hstray'⟩ :=
                (ih braces (count + 1) (by omega) hopen hstray).2 count rfl
              rw [List.length_append, List.length_cons] at hlength
              obtain ⟨hzero, hnext⟩ := ih rest count (by omega) hopen' hstray'
              refine ⟨fun hcount => .pair offset stop hinner (hzero hcount),
                fun outer hcount => ?_⟩
              obtain ⟨inner', stop', rest', rfl, hinner', hopen'', hstray''⟩ :=
                hnext outer hcount
              refine ⟨(.opening, offset)
                :: (inner ++ (.closing, stop) :: inner'), stop', rest', ?_,
                .pair offset stop hinner hinner', hopen'', hstray''⟩
              rw [List.cons_append, List.append_assoc, List.cons_append]

/-- Braces are balanced if and only if none is stray and none is left open. -/
theorem balanced_iff {braces : List (Brace × Nat)} :
    Balanced braces ↔ strayBraces 0 braces = [] ∧ openBraces 0 braces = 0 := by
  constructor
  · intro h
    exact ⟨(h.counts 0).2, (h.counts 0).1⟩
  · rintro ⟨hstray, hopen⟩
    exact (balanced_up_to braces.length braces 0 (Nat.le_refl _) hopen hstray).1
      rfl

-- ======================================================= the tracker

/-- What is reported of a brace that closes nothing. -/
def Diagnostic.stray (lines : Text.Lines) (offset : Nat) : Diagnostic :=
  ⟨.strayBrace, offset, lines.lineOf offset⟩

namespace Tracker

/-- Between the two trackers just these braces were read: the scopes open and
the problems met are those that the braces leave. -/
structure CountsFrom (lines : Text.Lines) (braces : List (Brace × Nat))
    (t t' : Tracker) : Prop where
  levels : t'.levels.length = openBraces t.levels.length braces
  diagnostics : t'.diagnostics
    = t.diagnostics ++ (strayBraces t.levels.length braces).map (.stray lines)

variable {lines : Text.Lines} {t t' t'' : Tracker}

/-- A step that reads no brace leaves scopes and diagnostics as they are. -/
theorem CountsFrom.none (hlevels : t'.levels = t.levels)
    (hdiagnostics : t'.diagnostics = t.diagnostics) :
    CountsFrom lines [] t t' := by
  refine ⟨?_, ?_⟩
  · rw [hlevels]
    rfl
  · rw [hdiagnostics]
    exact (List.append_nil _).symm

/-- Steps one after the other count their braces one after the other. -/
theorem CountsFrom.trans {front back : List (Brace × Nat)}
    (h : CountsFrom lines front t t') (h' : CountsFrom lines back t' t'') :
    CountsFrom lines (front ++ back) t t'' := by
  refine ⟨?_, ?_⟩
  · rw [h'.levels, h.levels, openBraces_append]
  · rw [h'.diagnostics, h.diagnostics, h.levels, strayBraces_append,
      List.map_append, List.append_assoc]

@[simp] theorem append_diagnostics (tracker : Tracker) (token : Token) :
    (tracker.append token).diagnostics = tracker.diagnostics := by
  simp only [append]

/-- A closing brace closes the innermost scope, or is reported. -/
theorem pop_counts (lines : Text.Lines) (token : Token) (t : Tracker) :
    CountsFrom lines [(.closing, token.start)] t
      (t.pop lines token).tracker := by
  unfold pop
  cases hlevels : t.levels with
  | nil =>
      refine ⟨?_, ?_⟩
      · show t.levels.length = _
        rw [hlevels]
        rfl
      · rw [hlevels]
        rfl
  | cons level levels =>
      refine ⟨?_, ?_⟩
      · rw [hlevels]
        rfl
      · rw [hlevels]
        exact (List.append_nil _).symm

/-- A token that is no literal and no directive counts by its text. -/
theorem feedCode_counts (rules : Rules) (lines : Text.Lines) (token : Token)
    (t : Tracker) :
    CountsFrom lines
      (if token.text = "\x7b" then some (Brace.opening, token.start)
        else if token.text = "\x7d" then some (Brace.closing, token.start)
          else none).toList
      t (t.feedCode rules lines token).tracker := by
  unfold feedCode
  by_cases hopens : token.text = "\x7b"
  · rw [if_pos hopens, if_pos (beq_iff_eq.2 hopens)]
    exact ⟨rfl, (List.append_nil _).symm⟩
  · rw [if_neg hopens, if_neg fun h => hopens (beq_iff_eq.1 h)]
    by_cases hcloses : token.text = "\x7d"
    · rw [if_pos hcloses, if_pos (beq_iff_eq.2 hcloses)]
      exact pop_counts lines token t
    · rw [if_neg hcloses, if_neg fun h => hcloses (beq_iff_eq.1 h)]
      split
      · exact .none rfl rfl
      · refine .none ?_ ?_
        · rw [append_levels]
        · rw [append_diagnostics]

/-- A token counts as the brace that it is. -/
theorem feedToken_counts (rules : Rules) (lines : Text.Lines) (token : Token)
    (t : Tracker) :
    CountsFrom lines token.brace?.toList t
      (t.feedToken rules lines token).tracker := by
  obtain ⟨hlevels, hdiagnostics⟩ :=
    feedCode_counts rules lines token { t with previous := some token }
  unfold feedToken Token.brace?
  cases token.kind with
  | literal =>
      refine .none ?_ ?_
      · rw [append_levels]
      · rw [append_diagnostics]
  | directive => exact .none rfl rfl
  | word => exact ⟨hlevels, hdiagnostics⟩
  | number => exact ⟨hlevels, hdiagnostics⟩
  | operator => exact ⟨hlevels, hdiagnostics⟩
  | punct => exact ⟨hlevels, hdiagnostics⟩

/-- A line break counts as nothing. -/
theorem breakLine_counts (rules : Rules) (lines : Text.Lines) (t : Tracker)
    (offset : Nat) (next : Option String) :
    CountsFrom lines [] t (t.breakLine rules lines offset next).1 := by
  rcases breakLine_cases rules lines t offset next with h | h
  · rw [h]
    exact .none rfl rfl
  · rw [h]
    exact .none rfl rfl

/-- A token counts the brace that it is, if it is one. -/
theorem feed_counts (rules : Rules) (lines : Text.Lines) (token : Token)
    (t : Tracker) :
    CountsFrom lines token.brace?.toList t
      (t.feed rules lines token).tracker := by
  rw [feed_eq]
  exact (breakLine_counts rules lines t token.start (some token.text)).trans
    (feedToken_counts rules lines token _)

/-- The end of the text counts no brace. -/
theorem flush_counts (rules : Rules) (lines : Text.Lines) (t : Tracker) :
    CountsFrom lines [] t (t.flush rules lines).1 := by
  rcases flush_cases rules lines t with h | h
  · rw [h]
    exact .none rfl rfl
  · rw [h]
    exact .none rfl rfl

end Tracker

/-- What is reported at the end of a text with `count` scopes open: nothing, or
one diagnostic that says how many. -/
inductive ReportsOpen (lines : Text.Lines) (textEnd : Int) (count : Nat) :
    List Diagnostic → Prop where
  | none (closed : count = 0) : ReportsOpen lines textEnd count []
  | some (left : 0 < count) (innermost : ScopeKind) (offset : Nat) :
    ReportsOpen lines textEnd count
      [⟨.openScopes count textEnd innermost, offset, lines.lineOf offset⟩]

/-- Scopes left open at the end are reported in one diagnostic. -/
theorem Tracker.close_reports (lines : Text.Lines) (textEnd : Int)
    (t : Tracker) :
    ∃ last, (t.close lines textEnd).tracker.diagnostics = t.diagnostics ++ last
      ∧ ReportsOpen lines textEnd t.levels.length last := by
  unfold close unclosed
  cases hlevels : t.levels with
  | nil => exact ⟨[], (List.append_nil _).symm, .none rfl⟩
  | cons level levels =>
      have hcount : (levels.map (·.opening.frame)).length + 1
          = (level :: levels).length := by
        rw [List.length_map, List.length_cons]
      rw [List.map_cons]
      simp only [hcount]
      exact ⟨_, rfl,
        .some (Nat.succ_pos _) level.opening.frame.kind
          level.opening.frame.start⟩

end Marginalia
