/-
Lines and slices of two texts with an empty line between them.

Offsets of the first text keep their lines; those of the second lie as many
lines further on as the first text and the empty line have line feeds.
Slices do not change either.
-/
import Marginalia.Proofs.Scope.Moved

namespace Marginalia.Text

-- ============================================================= lines

/-- The line starts of a text in two parts, the second counted on from behind
the first. -/
theorem startsAfter_append (front back : List Char) :
    ∀ offset, startsAfter offset (front ++ back)
      = startsAfter offset front
        ++ startsAfter (offset + front.length) back := by
  induction front with
  | nil => intro offset; rfl
  | cons c front ih =>
      intro offset
      have hnext := ih (offset + 1)
      rw [Nat.add_assoc, Nat.add_comm 1] at hnext
      rw [List.cons_append, startsAfter, startsAfter, hnext, List.length_cons]
      split <;> rfl

/-- Line starts move with their text. -/
theorem startsAfter_moved (k : Nat) (text : List Char) :
    ∀ offset, startsAfter (offset + k) text
      = (startsAfter offset text).map (· + k) := by
  induction text with
  | nil => intro offset; rfl
  | cons c text ih =>
      intro offset
      have hnext := ih (offset + 1)
      rw [Nat.add_right_comm] at hnext
      rw [startsAfter, startsAfter, hnext]
      split
      · rw [List.map_cons, Nat.add_right_comm]
      · rfl

/-- A line starts behind its text's start, and not behind the end. -/
theorem mem_startsAfter {text : List Char} :
    ∀ {offset start : Nat}, start ∈ startsAfter offset text →
      offset < start ∧ start ≤ offset + text.length := by
  induction text with
  | nil =>
      intro offset start h
      cases h
  | cons c text ih =>
      intro offset start h
      rw [startsAfter] at h
      rw [List.length_cons]
      split at h
      · rcases List.mem_cons.1 h with rfl | h
        · omega
        · have hbounds := ih h
          omega
      · have hbounds := ih h
        omega

/-- Every line feed starts one line. -/
theorem length_startsAfter (text : List Char) :
    ∀ offset, (startsAfter offset text).length = text.count '\n' := by
  induction text with
  | nil => intro offset; rfl
  | cons c text ih =>
      intro offset
      rw [startsAfter, List.count_cons]
      split
      · rw [List.length_cons, ih]
      · rw [ih, Nat.add_zero]

/-- More text does not change the lines of what stands in front. -/
theorem Lines.lineOf_front (front back : List Char) {offset : Nat}
    (h : offset ≤ front.length) :
    (Lines.ofText (front ++ back)).lineOf offset
      = (Lines.ofText front).lineOf offset := by
  have hback : (startsAfter front.length back).countP (· ≤ offset) = 0 := by
    refine List.countP_eq_zero.2 fun start hstart => ?_
    have hbounds := mem_startsAfter hstart
    simp only [decide_eq_true_eq]
    omega
  simp only [Lines.lineOf, Lines.ofText, startsAfter_append, List.countP_cons,
    List.countP_append, Nat.zero_add, hback, Nat.add_zero]

/-- The lines of a text behind another and an empty line. -/
theorem Lines.lineOf_back (front back : List Char) (offset : Nat) :
    (Lines.ofText (front ++ '\n' :: '\n' :: back)).lineOf
      (offset + (front.length + 2))
      = (Lines.ofText back).lineOf offset + (front.count '\n' + 2) := by
  have hfront : (startsAfter 0 front).countP (· ≤ offset + (front.length + 2))
      = front.count '\n' := by
    rw [← length_startsAfter front 0]
    refine List.countP_eq_length.2 fun start hstart => ?_
    have hbounds := mem_startsAfter hstart
    simp only [decide_eq_true_eq]
    omega
  have hback : (startsAfter (0 + front.length + 1 + 1) back).countP
        (· ≤ offset + (front.length + 2))
      = (startsAfter 0 back).countP (· ≤ offset) := by
    have hmoved := startsAfter_moved (front.length + 2) back 0
    rw [show 0 + front.length + 1 + 1 = 0 + (front.length + 2) by omega, hmoved,
      List.countP_map]
    refine List.countP_congr fun start _ => ?_
    simp only [Function.comp_apply, decide_eq_true_eq]
    omega
  have hseam : startsAfter (0 + front.length) ('\n' :: '\n' :: back)
      = (0 + front.length + 1) :: (0 + front.length + 1 + 1)
        :: startsAfter (0 + front.length + 1 + 1) back := rfl
  simp only [Lines.lineOf, Lines.ofText, startsAfter_append, hseam,
    List.countP_cons, List.countP_append, hfront, hback, decide_eq_true_eq]
  rw [if_pos (by omega), if_pos (by omega), if_pos (by omega),
    if_pos (by omega)]
  omega

/-- Every offset lies on a line. -/
theorem Lines.lineOf_pos (text : List Char) (offset : Nat) :
    1 ≤ (Lines.ofText text).lineOf offset := by
  simp only [Lines.lineOf, Lines.ofText, List.countP_cons, decide_eq_true_eq]
  rw [if_pos (Nat.zero_le _)]
  omega

/-- No place lies below the last line. -/
theorem Lines.lineOf_le (text : List Char) (offset : Nat) :
    (Lines.ofText text).lineOf offset ≤ text.count '\n' + 1 := by
  have hle :=
    List.countP_le_length (p := (· ≤ offset)) (l := startsAfter 0 text)
  rw [length_startsAfter] at hle
  simp only [Lines.lineOf, Lines.ofText, List.countP_cons]
  split <;> omega

/-- The lines of a text keep their numbers when more follows. -/
theorem linesMoved_front (front back : List Char) :
    LinesMoved 0 0 front.length (Lines.ofText front)
      (Lines.ofText (front ++ back)) :=
  fun _ h => Lines.lineOf_front front back h

/-- The lines of a text move down by those put in front of it. -/
theorem linesMoved_back (front back : List Char) (limit : Nat) :
    LinesMoved (front.length + 2) (front.count '\n' + 2) limit
      (Lines.ofText back) (Lines.ofText (front ++ '\n' :: '\n' :: back)) :=
  fun offset _ => Lines.lineOf_back front back offset

-- ============================================================ slices

/-- A part of a text is the same part when more follows. -/
theorem slice_front (front back : List Char) {start stop : Nat}
    (h : stop ≤ front.length) :
    slice (front ++ back) start stop = slice front start stop := by
  unfold slice
  by_cases hstart : start ≤ front.length
  · rw [List.drop_append_of_le_length hstart, List.take_append_of_le_length]
    rw [List.length_drop]
    omega
  · rw [show stop - start = 0 by omega, List.take_zero, List.take_zero]

theorem drop_back (front back : List Char) (n : Nat) :
    (front ++ '\n' :: '\n' :: back).drop (n + (front.length + 2))
      = back.drop n := by
  rw [show n + (front.length + 2) = front.length + (n + 2) by omega,
    List.drop_append, List.drop_eq_nil_of_le (Nat.le_add_right _ _),
    Nat.add_sub_cancel_left, List.nil_append, List.drop_succ_cons,
    List.drop_succ_cons]

/-- A part of the second text is found as much further on. -/
theorem slice_back (front back : List Char) (start stop : Nat) :
    slice (front ++ '\n' :: '\n' :: back) (start + (front.length + 2))
        (stop + (front.length + 2))
      = slice back start stop := by
  unfold slice
  rw [drop_back, Nat.add_sub_add_right]

end Marginalia.Text
