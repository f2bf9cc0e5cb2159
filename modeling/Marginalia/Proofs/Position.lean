/-
Reading lists by position.

A list can be taken apart from the front, and then nothing can go wrong; or
it can be read at positions that were computed, and then every access has to
be in range. Here an access fails where nothing stands, in front of the list
as well as behind it, and a reading fails with its first access that does
(`ByPosition`); so does a loop that would go on at the position it is at. That
a reading never fails is a statement about it, and not a property of its
type.

The lemmas say what stands at a position by the parts of the list around it:
in front of it, and from it on (`RestAt`). A reading that keeps such a rest of
the list beside its position has all its accesses in range.
-/
namespace Marginalia

/-- Why a reading by positions fails. -/
inductive PositionError where
  /-- Nothing stands at the position in a list of that length. -/
  | outOfRange (position : Int) (length : Nat)
  /-- The text that was looked for is not there. -/
  | absent (text : String)
  /-- The loop does not get on. -/
  | stalled (position : Nat)
  deriving DecidableEq, Repr

/-- What is read by positions, if every access is in range. -/
abbrev ByPosition (α : Type) : Type := Except PositionError α

section Items

variable {α : Type}

/-- What stands at a position, counted from 0. -/
def item (xs : List α) (position : Int) : ByPosition α :=
  match position with
  | .ofNat n =>
    match xs[n]? with
    | some x => .ok x
    | none => .error (.outOfRange position xs.length)
  | .negSucc _ => .error (.outOfRange position xs.length)

/-- What stands at the end. -/
def lastItem (xs : List α) : ByPosition α := item xs (xs.length - 1)

/-- What stands in front of a position, unless it is the first. -/
def itemBefore? (xs : List α) (position : Int) : ByPosition (Option α) :=
  if 0 < position then do return some (← item xs (position - 1))
  else return none

/-- Whether the list goes on to the position and has an item with the
property there. -/
def holdsAt (xs : List α) (i : Nat) (p : α → Bool) : ByPosition Bool :=
  if i < xs.length then do return p (← item xs i) else return false

/-- The list without its first item. -/
def popped : List α → ByPosition (List α)
  | [] => .error (.outOfRange 0 0)
  | _ :: xs => return xs

/-- The positions from `start` to the end of the list. -/
def positionsFrom (xs : List α) (start : Nat) : List Nat :=
  List.range' start (xs.length - start)

/-- The first of the positions at which `p` holds. -/
def firstPosition (p : Nat → ByPosition Bool) :
    List Nat → ByPosition (Option Nat)
  | [] => return none
  | i :: is => do
    if ← p i then return some i else firstPosition p is

@[simp] theorem pure_eq_ok (x : α) : (pure x : ByPosition α) = .ok x := rfl

/-- A reading goes on with what was read. -/
@[simp] theorem ok_bind {β : Type} (x : α) (f : α → ByPosition β) :
    (.ok x : ByPosition α) >>= f = f x := rfl

/-- An access at a natural number is in range exactly if something stands
there. -/
theorem item_eq_ok {xs : List α} {n : Nat} {x : α} :
    item xs n = .ok x ↔ xs[n]? = some x := by
  show (match xs[n]? with
    | some x => Except.ok x
    | none => Except.error (PositionError.outOfRange n xs.length)) = .ok x ↔ _
  cases xs[n]? with
  | none => exact iff_of_false (by simp) (by simp)
  | some y => rw [Except.ok.injEq, Option.some.injEq]

/-- What stands behind the front part of a list. -/
theorem item_append (front : List α) (x : α) (back : List α) :
    item (front ++ x :: back) front.length = .ok x := by
  rw [item_eq_ok, List.getElem?_append_right (Nat.le_refl _), Nat.sub_self]
  rfl

/-- What stands at the end of the front part of a list. -/
theorem item_pred {front : List α} {x : α} (h : front.getLast? = some x)
    (back : List α) : item (front ++ back) (front.length - 1) = .ok x := by
  obtain ⟨before, rfl⟩ := List.getLast?_eq_some_iff.1 h
  have hposition : ((before ++ [x]).length : Int) - 1 = before.length := by
    rw [List.length_append, List.length_singleton]
    omega
  rw [hposition, List.append_assoc]
  exact item_append before x back

/-- What stands in front of a position, if anything does. -/
theorem itemBefore?_append (front back : List α) :
    itemBefore? (front ++ back) front.length = .ok front.getLast? := by
  rw [itemBefore?]
  cases hlast : front.getLast? with
  | none =>
      rw [List.getLast?_eq_none_iff.1 hlast, if_neg (by simp)]
      rfl
  | some x =>
      have hne : front ≠ [] := by
        rintro rfl
        cases hlast
      have hpos := List.length_pos_iff.2 hne
      rw [if_pos (by omega), item_pred hlast]
      rfl

/-- What was found in front of a position is found there again. -/
theorem item_of_itemBefore? {xs : List α} {position : Int} {x : α}
    (h : itemBefore? xs position = .ok (some x)) :
    item xs (position - 1) = .ok x := by
  rw [itemBefore?] at h
  split at h
  · cases hitem : item xs (position - 1) with
    | error e =>
        rw [hitem] at h
        cases h
    | ok y =>
        rw [hitem] at h
        cases h
        rfl
  · cases h

/-- What stands in the front part of a list stands in the whole. -/
theorem item_append_left {xs : List α} {n : Nat} {x : α}
    (h : item xs n = .ok x) (ys : List α) : item (xs ++ ys) n = .ok x := by
  rw [item_eq_ok] at h ⊢
  rw [List.getElem?_append_left (List.getElem?_eq_some_iff.1 h).1, h]

/-- The end of a list. -/
theorem lastItem_eq {xs : List α} {x : α} (h : xs.getLast? = some x) :
    lastItem xs = .ok x := by
  have hitem := item_pred h []
  rwa [List.append_nil] at hitem

theorem lastItem_concat (xs : List α) (x : α) : lastItem (xs ++ [x]) = .ok x :=
  lastItem_eq List.getLast?_concat

/-- Where no two items can be taken off the front, there are none or one. -/
theorem length_lt_two {xs : List α}
    (h : ∀ first second rest, xs = first :: second :: rest → False) :
    xs.length < 2 := by
  cases xs with
  | nil => exact Nat.zero_lt_two
  | cons first xs =>
      cases xs with
      | nil => exact Nat.one_lt_two
      | cons second rest => exact (h first second rest rfl).elim

/-- A search goes through one list of positions after the other. -/
theorem firstPosition_append (p : Nat → ByPosition Bool) (is js : List Nat) :
    firstPosition p (is ++ js) = firstPosition p is >>= fun
      | some i => .ok (some i)
      | none => firstPosition p js := by
  induction is with
  | nil => rfl
  | cons i is ih =>
      rw [List.cons_append, firstPosition, firstPosition, ih, bind_assoc]
      refine congrArg _ (funext fun found => ?_)
      cases found with
      | false => rfl
      | true => rfl

-- ============================================================= rests

/-- What is left of the list from the position on. -/
def RestAt (xs : List α) (i : Nat) (rest : List α) : Prop :=
  ∃ front, xs = front ++ rest ∧ front.length = i

theorem RestAt.start (xs : List α) : RestAt xs 0 xs := ⟨[], rfl, rfl⟩

/-- A rest of a list stands somewhere in it. -/
theorem RestAt.of_suffix {xs rest : List α} (h : rest <:+ xs) :
    RestAt xs (xs.length - rest.length) rest := by
  obtain ⟨front, rfl⟩ := h
  exact ⟨front, rfl, by rw [List.length_append, Nat.add_sub_cancel]⟩

section Rests

variable {xs rest : List α} {x : α} {i : Nat}

/-- What is left from a position on is the list without what is in front. -/
theorem RestAt.drop (h : RestAt xs i rest) : xs.drop i = rest := by
  obtain ⟨front, rfl, rfl⟩ := h
  exact List.drop_left

/-- A position and what is left from there on make up the list. -/
theorem RestAt.length (h : RestAt xs i rest) : i + rest.length = xs.length := by
  obtain ⟨front, rfl, rfl⟩ := h
  rw [List.length_append]

/-- Behind the front of the rest, as many positions on, the rest of it is
left. -/
theorem RestAt.append (front : List α) (h : RestAt xs i (front ++ rest)) :
    RestAt xs (i + front.length) rest := by
  obtain ⟨before, rfl, rfl⟩ := h
  exact ⟨before ++ front, (List.append_assoc ..).symm, List.length_append⟩

/-- One position on, the tail is left. -/
theorem RestAt.tail (h : RestAt xs i (x :: rest)) : RestAt xs (i + 1) rest :=
  RestAt.append [x] h

/-- Where something is left, the access is in range. -/
theorem RestAt.item (h : RestAt xs i (x :: rest)) :
    Marginalia.item xs i = .ok x := by
  obtain ⟨front, rfl, rfl⟩ := h
  exact item_append front x rest

/-- The position behind the first item of the rest is in range if the rest
has two. -/
theorem RestAt.item_next {y : α} (h : RestAt xs i (x :: y :: rest)) :
    Marginalia.item xs (i + 1) = .ok y :=
  h.tail.item

/-- Asking a position that may be behind the last is asking the first item of
the rest, if there is one. -/
theorem RestAt.holdsAt (h : RestAt xs i rest) (p : α → Bool) :
    Marginalia.holdsAt xs i p = .ok (rest.head?.any p) := by
  have hlength := h.length
  rw [Marginalia.holdsAt]
  cases rest with
  | nil =>
      rw [List.length_nil] at hlength
      rw [if_neg (by omega)]
      rfl
  | cons x rest =>
      rw [List.length_cons] at hlength
      rw [if_pos (by omega), h.item]
      rfl

theorem RestAt.positions_nil (h : RestAt xs i []) :
    positionsFrom xs i = [] := by
  have hlength := h.length
  rw [List.length_nil] at hlength
  rw [positionsFrom, show xs.length - i = 0 by omega, List.range'_zero]

/-- The positions left go through the rest item by item. -/
theorem RestAt.positions_cons (h : RestAt xs i (x :: rest)) :
    positionsFrom xs i = i :: positionsFrom xs (i + 1) := by
  have hlength := h.length
  rw [List.length_cons] at hlength
  rw [positionsFrom, positionsFrom,
    show xs.length - i = xs.length - (i + 1) + 1 by omega, List.range'_succ]

end Rests

end Items

end Marginalia
