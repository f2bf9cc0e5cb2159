/-
Reading a header by position never fails.

Whatever tokens a header has, every position that is computed on the way is
in range, every loop gets on, and what is found is what is found by taking
the list apart (`Rules.ReadsByPosition`). The rules of every dialect are read
so, whatever options are set (`Dialect.readsByPosition`).

Each part is compared with its counterpart on lists. A position is not known
by its value but by what is left of the header from there on (`RestAt`): the
loops forwards keep such a rest, and the positions they end at are those of
the rests that the functions on lists return. Backwards, what counts is how
many tokens are in front. The searches know the depth that they start at from
the tokens in front (`depthBehind`). One that starts behind a keyword starts
outside all brackets, as long as no keyword is a bracket itself
(`Rules.keywordsFlat`).
-/
import Mathlib.Data.List.TakeWhile
import Marginalia.Proofs.Header.Positions
import Marginalia.Proofs.Header.Undecorated
import Marginalia.Proofs.Header.Innermost
import Marginalia.Proofs.Scan.Applied

namespace Marginalia

-- ========================================================== searches

/-- The depth behind tokens, `depth` brackets being open before them. -/
def depthBehind (depth : Nat) (ts : List Token) : Nat :=
  ts.foldl (fun depth t => t.depthAfter (t.depthAt depth)) depth

theorem depthBehind_concat (depth : Nat) (ts : List Token) (t : Token) :
    depthBehind depth (ts ++ [t])
      = t.depthAfter (t.depthAt (depthBehind depth ts)) := by
  rw [depthBehind, List.foldl_append]
  rfl

theorem depthsFrom_length (ts : List Token) :
    ∀ depth, (depthsFrom depth ts).length = ts.length := by
  induction ts with
  | nil => exact fun depth => rfl
  | cons t ts ih =>
      intro depth
      rw [depthsFrom, List.length_cons, ih, List.length_cons]

/-- The depths of tokens in two parts, the second counted on from behind
the first. -/
theorem depthsFrom_append (front back : List Token) :
    ∀ depth, depthsFrom depth (front ++ back)
      = depthsFrom depth front
        ++ depthsFrom (depthBehind depth front) back := by
  induction front with
  | nil => exact fun depth => rfl
  | cons t front ih =>
      intro depth
      rw [List.cons_append, depthsFrom, ih, depthsFrom, List.cons_append]
      rfl

/-- The depth of a token is known from those in front of it. -/
theorem item_depths (front : List Token) (t : Token) (back : List Token) :
    item (depths (front ++ t :: back)) front.length
      = .ok (t.depthAt (depthBehind 0 front)) := by
  rw [depths, depthsFrom_append, depthsFrom, ← depthsFrom_length front 0]
  exact item_append ..

/-- A split cuts the tokens at one that stands outside all brackets and has
the property. -/
theorem splitTop_parts {p : Option Token → Token → Bool} (ts : List Token) :
    ∀ {before : Option Token} {depth : Nat} {front back : List Token}
      {t : Token}, splitTop p before depth ts = some (front, t, back) →
      ts = front ++ t :: back ∧ t.depthAt (depthBehind depth front) = 0
        ∧ ∃ before, p before t = true := by
  induction ts with
  | nil => intro before depth front back t h; cases h
  | cons first ts ih =>
      intro before depth front back t h
      rw [splitTop] at h
      split at h
      · next hfirst =>
        cases h
        rw [Bool.and_eq_true, beq_iff_eq] at hfirst
        exact ⟨rfl, hfirst.1, before, hfirst.2⟩
      · obtain ⟨⟨front, t, back⟩, hsplit, heq⟩ := Option.map_eq_some_iff.1 h
        cases heq
        obtain ⟨rfl, hdepth, hp⟩ := ih hsplit
        exact ⟨rfl, hdepth, hp⟩

/-- A search by positions finds where the tokens are split. -/
theorem firstPosition_splitTop {p : Option Token → Token → Bool}
    {q : Nat → ByPosition Bool} (ts : List Token)
    (hq : ∀ front t back, ts = front ++ t :: back →
      q front.length
        = .ok (t.depthAt (depthBehind 0 front) == 0 && p front.getLast? t))
    (rest : List Token) :
    ∀ front, ts = front ++ rest →
      firstPosition q (positionsFrom ts front.length)
        = .ok ((splitTop p front.getLast? (depthBehind 0 front) rest).map
            fun split => front.length + split.1.length) := by
  induction rest with
  | nil =>
      intro front hts
      rw [RestAt.positions_nil ⟨front, hts, rfl⟩]
      rfl
  | cons t rest ih =>
      intro front hts
      rw [RestAt.positions_cons ⟨front, hts, rfl⟩, firstPosition,
        hq front t rest hts, ok_bind, splitTop]
      split
      · rfl
      · -- behind the token, the search goes on with the token in front
        have hnext := ih (front ++ [t]) (by rw [hts, List.append_cons])
        rw [List.length_append, List.length_singleton, List.getLast?_concat,
          depthBehind_concat] at hnext
        rw [hnext, Option.map_map]
        refine congrArg Except.ok (congrArg (Option.map · _) ?_)
        refine funext fun split => ?_
        show front.length + 1 + split.1.length
          = front.length + (t :: split.1).length
        rw [List.length_cons]
        omega

/-- A search backwards finds where the tokens are split last. -/
theorem firstPosition_splitLastText {text : String}
    {q : Nat → ByPosition Bool} (ts : List Token)
    (hq : ∀ front t back, ts = front ++ t :: back →
      q front.length
        = .ok (t.depthAt (depthBehind 0 front) == 0 && t.text == text))
    (rest : List Token) :
    ∀ front, ts = front ++ rest →
      firstPosition q (positionsFrom ts front.length).reverse
        = .ok ((splitLastText text (depthBehind 0 front) rest).map
            fun split => front.length + split.1.length) := by
  induction rest with
  | nil =>
      intro front hts
      rw [RestAt.positions_nil ⟨front, hts, rfl⟩]
      rfl
  | cons t rest ih =>
      intro front hts
      have hnext := ih (front ++ [t]) (by rw [hts, List.append_cons])
      rw [List.length_append, List.length_singleton, depthBehind_concat]
        at hnext
      rw [RestAt.positions_cons ⟨front, hts, rfl⟩, List.reverse_cons,
        firstPosition_append, hnext, ok_bind, splitLastText]
      cases splitLastText text _ rest with
      | some split =>
          have hposition : front.length + 1 + split.1.length
              = front.length + (t :: split.1).length := by
            rw [List.length_cons]
            omega
          exact congrArg (fun i => Except.ok (some i)) hposition
      | none =>
          show (q front.length >>= _) = _
          rw [hq front t rest hts, ok_bind]
          split
          · rfl
          · rfl

/-- Asking a position whether one of the texts stands there outside all brackets
is asking its token. -/
theorem isTopText_eq (texts : List String) (front : List Token) (t : Token)
    (back : List Token) :
    isTopText texts (front ++ t :: back) front.length
      = .ok (t.depthAt (depthBehind 0 front) == 0
          && texts.contains t.text) := by
  rw [isTopText, item_depths, ok_bind, item_append]
  cases t.depthAt (depthBehind 0 front) == 0 with
  | false => rfl
  | true => rfl

/-- Asking for a keyword also looks at the token in front, which is there unless
the position is the first. -/
theorem isTopKeyword_eq (keywords notAfter : List String) (front : List Token)
    (t : Token) (back : List Token) :
    isTopKeyword keywords notAfter (front ++ t :: back) front.length
      = .ok (t.depthAt (depthBehind 0 front) == 0
          && (t.isWord && keywords.contains t.text
            && !front.getLast?.any fun b => notAfter.contains b.text)) := by
  rw [isTopKeyword, item_append, ok_bind, item_depths, ok_bind,
    itemBefore?_append, ← Bool.and_assoc, ← Bool.and_assoc]
  split
  · next hkeyword =>
    rw [hkeyword]
    rfl
  · next hother =>
    rw [Bool.eq_false_iff.2 hother]
    rfl

/-- A search for texts finds where they split the rest of the header, if it
starts outside all brackets. -/
theorem topPosition_eq (texts : List String) (front : List Token)
    (hdepth : depthBehind 0 front = 0) (rest : List Token) :
    topPosition texts (front ++ rest) front.length
      = .ok ((splitAtText texts rest).map
          fun split => front.length + split.1.length) := by
  rw [topPosition, firstPosition_splitTop
    (p := fun _ t => texts.contains t.text) _ ?_ rest front rfl, hdepth]
  · -- what stands in front of the rest does not count
    cases rest with
    | nil => rfl
    | cons t rest => rfl
  · rintro before t back hts
    rw [hts]
    exact isTopText_eq texts before t back

/-- From the start of a header the search is that for the first split. -/
theorem topPosition_start (texts : List String) (ts : List Token) :
    topPosition texts ts 0
      = .ok ((splitAtText texts ts).map fun split => split.1.length) := by
  have h := topPosition_eq texts [] rfl ts
  simpa only [List.nil_append, List.length_nil, Nat.zero_add] using h

/-- A search for keywords finds where the first one splits the header. -/
theorem keywordPosition_eq (keywords notAfter : List String)
    (ts : List Token) :
    keywordPosition keywords notAfter ts
      = .ok ((splitAtKeyword keywords notAfter ts).map
          fun split => split.1.length) := by
  have h := firstPosition_splitTop
    (p := fun before t => t.isWord && keywords.contains t.text
      && !before.any fun b => notAfter.contains b.text)
    (q := isTopKeyword keywords notAfter ts) ts
    (fun front t back hts => by
      rw [hts, isTopKeyword_eq]) ts [] rfl
  simp only [List.length_nil, Nat.zero_add] at h
  exact h

-- ============================================================ groups

/-- Of two open groups or more, closing one leaves the others. -/
theorem groups_left (depth : Nat) :
    ((depth + 1 : Nat) : Int) + 1 - 1 = depth + 1 := by
  omega

theorem groups_left_ne (depth : Nat) :
    ¬ ((depth + 1 : Int) == 0) = true := by
  rw [beq_iff_eq]
  omega

/-- The search for a closing bracket goes through the positions as `afterClose`
goes through the tokens; what it finds stands in front of what follows. -/
theorem closeFrom_eq {ts : List Token} (rest : List Token) :
    ∀ {i depth : Nat}, RestAt ts i rest →
      closeFrom ts (depth + 1) (positionsFrom ts i)
        = .ok ((afterClose depth rest).map
            fun behind => ts.length - behind.length - 1) := by
  induction rest with
  | nil =>
      intro i depth h
      rw [h.positions_nil]
      rfl
  | cons t rest ih =>
      intro i depth h
      have hlength := h.length
      rw [List.length_cons] at hlength
      rw [h.positions_cons, closeFrom, h.item, ok_bind,
        afterClose.eq_def]
      dsimp only
      split
      · exact ih h.tail
      · split
        · cases depth with
          | zero =>
              have hposition : ts.length - rest.length - 1 = i := by omega
              rw [if_pos (by decide), Option.map_some, hposition]
              rfl
          | succ depth =>
              rw [groups_left, if_neg (groups_left_ne depth)]
              exact ih h.tail
        · exact ih h.tail

/-- The bracket that closes a group is found in front of what follows. -/
theorem closePosition_eq {ts : List Token} {i : Nat} {t : Token}
    {rest : List Token} (h : RestAt ts i (t :: rest)) (ht : t.opens = true) :
    closePosition ts i
      = .ok ((afterClose 0 rest).map
          fun behind => ts.length - behind.length - 1) := by
  rw [closePosition, h.positions_cons, closeFrom, h.item, ok_bind, if_pos ht]
  exact closeFrom_eq rest h.tail

/-- The position behind a closing bracket is that of what follows. -/
theorem restAt_afterClose {ts : List Token} {i depth : Nat}
    {rest behind : List Token} (h : RestAt ts i rest)
    (hclose : afterClose depth rest = some behind) :
    RestAt ts (ts.length - behind.length - 1 + 1) behind := by
  obtain ⟨close, hbehind⟩ := afterClose_suffix hclose
  obtain ⟨front, rfl, -⟩ := h
  exact (RestAt.of_suffix (hbehind.trans (List.suffix_append front rest))).tail

/-- A group ends where what follows it starts. -/
theorem groupEnd_rest {ts : List Token} {i : Nat} {t : Token}
    {rest : List Token} (h : RestAt ts i (t :: rest)) (ht : t.opens = true) :
    ∃ j, groupEnd ts i = .ok j ∧ RestAt ts j (skipGroup rest) := by
  rw [groupEnd, closePosition_eq h ht, ok_bind, skipGroup]
  cases hclose : afterClose 0 rest with
  | none => exact ⟨ts.length, rfl, ts, (List.append_nil ts).symm, rfl⟩
  | some behind => exact ⟨_, rfl, restAt_afterClose h.tail hclose⟩

/-- So does the search for a closing angle bracket. Where the sign was a
comparison, it gives the position behind the sign. -/
theorem angleEndFrom_rest {ts : List Token} {opening : Nat}
    (rest : List Token) :
    ∀ {i depth : Nat}, RestAt ts i rest →
      ∃ j, angleEndFrom ts opening (depth + 1) (positionsFrom ts i) = .ok j
        ∧ match afterAngle depth rest with
          | some behind => RestAt ts j behind
          | none => j = opening + 1 := by
  induction rest with
  | nil =>
      intro i depth h
      rw [h.positions_nil]
      exact ⟨_, rfl, rfl⟩
  | cons t rest ih =>
      intro i depth h
      rw [h.positions_cons, angleEndFrom, h.item, ok_bind,
        afterAngle.eq_def]
      dsimp only
      split
      · exact ih h.tail
      · split
        · cases depth with
          | zero => exact ⟨i + 1, if_pos (by decide), h.tail⟩
          | succ depth =>
              rw [groups_left, if_neg (groups_left_ne depth)]
              exact ih h.tail
        · split
          · exact ⟨_, rfl, rfl⟩
          · exact ih h.tail

/-- An angle group ends where what follows it starts, behind its opening
sign. -/
theorem angleEnd_rest {ts : List Token} {i : Nat} {t : Token}
    {rest : List Token} (h : RestAt ts i (t :: rest)) (ht : t.text = "<") :
    ∃ j, angleEnd ts i = .ok j ∧ i < j ∧ RestAt ts j (skipAngle rest) := by
  rw [angleEnd, h.positions_cons, angleEndFrom, h.item, ok_bind,
    if_pos (beq_iff_eq.2 ht), skipAngle]
  obtain ⟨j, hj, hrest⟩ := angleEndFrom_rest rest h.tail
  refine ⟨j, hj, ?_⟩
  cases hangle : afterAngle 0 rest with
  | none =>
      rw [hangle] at hrest
      rw [hrest]
      exact ⟨Nat.lt_succ_self i, h.tail⟩
  | some behind =>
      rw [hangle] at hrest
      obtain ⟨close, hclose⟩ := afterAngle_suffix hangle
      have hbehind := hclose.length_le
      have hlength := h.length
      have hlength' := hrest.length
      rw [List.length_cons] at hlength hbehind
      exact ⟨by omega, hrest⟩

/-- Backwards, the search ends at the last token in front of the angle group, or
in front of all tokens. -/
theorem angleStartFrom_eq {ts back : List Token} (before : List Token) :
    ∀ {depth : Nat}, ts = before.reverse ++ back →
      angleStartFrom ts (depth + 1) (List.range before.length).reverse
        = .ok (((beforeAngle depth before).getD []).length - 1 : Int) := by
  induction before generalizing back with
  | nil => exact fun _ => rfl
  | cons t before ih =>
      intro depth hts
      rw [List.reverse_cons, List.append_assoc, List.singleton_append] at hts
      have hitem : item ts before.length = .ok t := by
        rw [hts, ← List.length_reverse]
        exact item_append before.reverse t back
      rw [List.length_cons, List.range_succ, List.reverse_append,
        List.reverse_singleton, List.singleton_append, angleStartFrom, hitem,
        ok_bind, beforeAngle.eq_def]
      dsimp only
      split
      · exact ih hts
      · split
        · cases depth with
          | zero => exact if_pos (by decide)
          | succ depth =>
              rw [groups_left, if_neg (groups_left_ne depth)]
              exact ih hts
        · exact ih hts

/-- The token in front of a parenthesis, type arguments apart, stands behind
as many tokens as are left in front of it. -/
theorem calleePosition_eq {front : List Token} (hne : front ≠ [])
    (back : List Token) :
    calleePosition (front ++ back) front.length
      = .ok ((skipAngleBack front.reverse).length - 1 : Int) := by
  obtain ⟨before, t, rfl⟩ :=
    (List.eq_nil_or_concat front).resolve_left hne
  rw [List.concat_eq_append]
  have hlength : (before ++ [t]).length = before.reverse.length + 1 := by
    rw [List.length_append, List.length_singleton, List.length_reverse]
  rw [calleePosition, item_pred List.getLast?_concat, ok_bind,
    List.reverse_concat, skipAngleBack]
  split
  · next hangle =>
    have hts : before ++ [t] ++ back = before.reverse.reverse ++ t :: back := by
      rw [List.reverse_reverse, List.append_assoc, List.singleton_append]
    have hitem : item (before ++ [t] ++ back) before.reverse.length
        = .ok t := by
      rw [hts, ← List.length_reverse]
      exact item_append before.reverse.reverse t back
    rw [hlength, List.range_succ, List.reverse_append,
      List.reverse_singleton, List.singleton_append, angleStartFrom, hitem,
      ok_bind, if_pos hangle]
    exact angleStartFrom_eq before.reverse hts
  · rw [hlength]
    rfl

-- ========================================================= innermost

/-- What follows the first of the positions is what was found. -/
def FollowsFirst (ts : List Token) : List Nat → Option (List Token) → Prop
  | [], inside => inside = none
  | i :: _, inside => ∃ rest, inside = some rest ∧ RestAt ts (i + 1) rest

/-- The positions of the brackets still open are those behind which the open
groups start. The induction carries both stacks side by side. -/
theorem openFrom_follows {ts : List Token} (rest : List Token) :
    ∀ {i : Nat} {opened : List Nat} {rests : List (List Token)},
      RestAt ts i rest →
      List.Forall₂ (fun i rest => RestAt ts (i + 1) rest) opened rests →
      ∃ left, openFrom opened (rest.zipIdx i) = .ok left
        ∧ FollowsFirst ts left (innermostFrom rests rest) := by
  induction rest with
  | nil =>
      intro i opened rests h hopened
      refine ⟨opened, rfl, ?_⟩
      cases hopened with
      | nil => rfl
      | cons hfirst => exact ⟨_, rfl, hfirst⟩
  | cons t rest ih =>
      intro i opened rests h hopened
      rw [List.zipIdx_cons, openFrom, innermostFrom]
      split
      · exact ih h.tail (.cons h.tail hopened)
      · split
        · next hcloses =>
          rw [Bool.and_eq_true] at hcloses
          rw [if_pos hcloses.1]
          cases hopened with
          | nil => exact absurd hcloses.2 (by decide)
          | cons _ hothers => exact ih h.tail hothers
        · next hother =>
          split
          · next hcloses =>
            -- nothing is open that could be closed
            cases hopened with
            | nil => exact ih h.tail .nil
            | cons => exact absurd hcloses (fun h => hother (by rw [h]; rfl))
          · exact ih h.tail hopened

/-- The innermost open group starts at the position that is computed, or the
header does. -/
theorem insidePosition_rest (ts : List Token) :
    ∃ i, insidePosition ts = .ok i
      ∧ RestAt ts i ((innermostFrom [] ts).getD ts) := by
  obtain ⟨left, hleft, hfollows⟩ :=
    openFrom_follows ts (RestAt.start ts) .nil
  rw [insidePosition, hleft, ok_bind]
  cases left with
  | nil =>
      rw [FollowsFirst] at hfollows
      rw [hfollows]
      exact ⟨0, rfl, .start ts⟩
  | cons i left =>
      obtain ⟨rest, hrest, hat⟩ := hfollows
      rw [hrest]
      exact ⟨i + 1, rfl, hat⟩

/-- The last argument starts at the position that is computed. -/
theorem argumentFrom_rest {bars : Bool} {ts : List Token} (rest : List Token) :
    ∀ {i start depth : Nat} {inBars : Bool} {found : List Token},
      RestAt ts i rest → RestAt ts start found →
      ∃ j, argumentFrom bars ts start depth inBars (positionsFrom ts i) = .ok j
        ∧ RestAt ts j (lastArgument bars found depth inBars rest) := by
  induction rest with
  | nil =>
      intro i start depth inBars found h hfound
      rw [h.positions_nil]
      exact ⟨start, rfl, hfound⟩
  | cons t rest ih =>
      intro i start depth inBars found h hfound
      rw [h.positions_cons, argumentFrom, h.item, ok_bind, lastArgument]
      split
      · exact ih h.tail hfound
      · split
        · exact ih h.tail hfound
        · split
          · exact ih h.tail hfound
          · split
            · exact ih h.tail h.tail
            · exact ih h.tail hfound

/-- The innermost expression starts at the position that is computed. -/
theorem innermostPosition_rest (bars : Bool) (ts : List Token) :
    ∃ i, innermostPosition bars ts = .ok i
      ∧ RestAt ts i (innermost bars ts) := by
  obtain ⟨inside, hinside, hrest⟩ := insidePosition_rest ts
  rw [innermostPosition, hinside, ok_bind]
  exact argumentFrom_rest _ hrest hrest

-- ======================================================= decorations

/-- A dotted name ends where what follows it starts. -/
theorem dottedNameEnd_rest {ts : List Token} (rest : List Token) :
    ∀ {i : Nat}, RestAt ts i rest →
      ∃ j, dottedNameEnd ts i = .ok j ∧ RestAt ts j (afterDottedName rest) := by
  fun_induction afterDottedName rest with
  | case1 dot word rest hname ih =>
      intro i h
      have hlength := h.length
      simp only [List.length_cons] at hlength
      rw [dottedNameEnd, if_pos (by omega), h.item, ok_bind, h.item_next,
        ok_bind, if_pos hname]
      exact ih h.tail.tail
  | case2 dot word rest hname =>
      intro i h
      have hlength := h.length
      simp only [List.length_cons] at hlength
      rw [dottedNameEnd, if_pos (by omega), h.item, ok_bind, h.item_next,
        ok_bind, if_neg hname]
      exact ⟨i, rfl, h⟩
  | case3 rest hshort =>
      intro i h
      have hlength := h.length
      have hone := length_lt_two hshort
      rw [dottedNameEnd, if_neg (by omega)]
      exact ⟨i, rfl, h⟩

theorem argumentsEnd_rest {ts rest : List Token} {i : Nat}
    (h : RestAt ts i rest) :
    ∃ j, argumentsEnd ts i = .ok j ∧ RestAt ts j (skipArguments rest) := by
  rw [argumentsEnd, h.holdsAt, ok_bind]
  cases rest with
  | nil => exact ⟨i, rfl, h⟩
  | cons t rest =>
      rw [skipArguments, List.head?_cons, Option.any_some]
      split
      · next ht => exact groupEnd_rest h (by rw [Token.opens, ht]; rfl)
      · exact ⟨i, rfl, h⟩

/-- A position is found, namely that of the rest, or neither is. -/
def FoundAt (ts : List Token) (position : ByPosition (Option Nat)) :
    Option (List Token) → Prop
  | none => position = .ok none
  | some rest => ∃ i, position = .ok (some i) ∧ RestAt ts i rest

/-- Of two searches the first that finds anything counts, as of two options. -/
theorem FoundAt.or {ts : List Token} {first second : ByPosition (Option Nat)}
    {a b : Option (List Token)} (ha : FoundAt ts first a)
    (hb : FoundAt ts second b) :
    FoundAt ts (orPosition first second) (a <|> b) := by
  cases a with
  | none =>
      rw [FoundAt] at ha
      rw [orPosition, ha]
      exact hb
  | some rest =>
      obtain ⟨i, hi, hrest⟩ := ha
      rw [orPosition, hi]
      exact ⟨i, rfl, hrest⟩

section Decorations

variable {ts rest : List Token} {i : Nat} {t : Token}

/-- A decorator ends where what follows it starts, if one is there. -/
theorem decoratorEnd?_found (h : RestAt ts i (t :: rest)) :
    FoundAt ts (decoratorEnd? ts i) (afterDecorator? rest) := by
  rw [decoratorEnd?, h.tail.holdsAt, ok_bind]
  cases rest with
  | nil => rfl
  | cons word rest =>
      rw [afterDecorator?, List.head?_cons, Option.any_some]
      cases word.isWord with
      | false => rfl
      | true =>
          simp only [if_true, h.item_next, ok_bind, Bool.not_true,
            Bool.false_eq_true, if_false]
          split
          · exact ⟨i + 1, rfl, h.tail⟩
          · obtain ⟨j, hj, hname⟩ := dottedNameEnd_rest rest h.tail.tail
            obtain ⟨k, hk, hbehind⟩ := argumentsEnd_rest hname
            refine ⟨k, ?_, hbehind⟩
            rw [hj, ok_bind, hk]
            rfl

theorem bangEnd_rest (h : RestAt ts i rest) :
    ∃ j, bangEnd ts i = .ok j ∧ RestAt ts j (skipBang rest) := by
  rw [bangEnd, h.holdsAt, ok_bind]
  cases rest with
  | nil => exact ⟨i, rfl, h⟩
  | cons t rest =>
      rw [skipBang, List.head?_cons, Option.any_some]
      split
      · exact ⟨i + 1, rfl, h.tail⟩
      · exact ⟨i, rfl, h⟩

theorem attributeEnd?_found (h : RestAt ts i (t :: rest)) :
    FoundAt ts (attributeEnd? ts i)
      (afterAttribute?
        (skipBang (if t.text == "#" then rest else t :: rest))) := by
  have hsign : RestAt ts (if t.text == "#" then i + 1 else i)
      (if t.text == "#" then rest else t :: rest) := by
    split
    · exact h.tail
    · exact h
  obtain ⟨bracket, hbracket, hat⟩ := bangEnd_rest hsign
  rw [attributeEnd?, h.item, ok_bind, hbracket, ok_bind, hat.holdsAt, ok_bind]
  generalize skipBang _ = inside at hat
  cases inside with
  | nil => rfl
  | cons first inside =>
      rw [afterAttribute?, List.head?_cons, Option.any_some]
      split
      · next hfirst =>
        obtain ⟨j, hj, hbehind⟩ :=
          groupEnd_rest hat (by rw [Token.opens, hfirst, Bool.or_true]; rfl)
        exact ⟨j, by rw [hj]; rfl, hbehind⟩
      · rfl

theorem templateEnd?_found (h : RestAt ts i (t :: rest)) :
    FoundAt ts (templateEnd? ts i) (afterTemplate? t rest) := by
  rw [templateEnd?, h.item, ok_bind, h.tail.holdsAt]
  cases rest with
  | nil =>
      split
      · rfl
      · rfl
  | cons angle rest =>
      rw [afterTemplate?, List.head?_cons, Option.any_some, ok_bind]
      cases t.text == "template" with
      | false => rfl
      | true =>
          rw [if_pos rfl, Bool.true_and]
          split
          · next hangle =>
            obtain ⟨j, hj, -, hbehind⟩ :=
              angleEnd_rest h.tail (beq_iff_eq.1 hangle)
            exact ⟨j, by rw [hj]; rfl, hbehind⟩
          · rfl

/-- A decoration ends where what follows it starts. -/
theorem Rules.decorationEnd?_found (rules : Rules) (atStart : Bool)
    (h : RestAt ts i (t :: rest)) :
    FoundAt ts (rules.decorationEnd? ts atStart i)
      (rules.decoration? atStart t rest) := by
  rw [decorationEnd?, h.item, ok_bind]
  refine .or ?_ (.or ?_ (templateEnd?_found h))
  · split
    · exact decoratorEnd?_found h
    · rfl
  · rw [attribute?]
    cases atStart with
    | false =>
        rw [Bool.and_false]
        rfl
    | true =>
        rw [Bool.and_true, if_pos rfl]
        split
        · exact attributeEnd?_found h
        · rfl

end Decorations

namespace Rules

/-- The tokens that are left by position are those that are left. -/
theorem undecoratedFrom_eq (rules : Rules) {ts : List Token} (atStart : Bool)
    (rest : List Token) :
    ∀ {i : Nat}, RestAt ts i rest →
      rules.undecoratedFrom ts atStart i
        = .ok (rules.undecorated atStart rest) := by
  induction hn : rest.length using Nat.strongRecOn generalizing atStart
    rest with
  | ind n ih =>
      intro i h
      have hlength := h.length
      rw [undecoratedFrom]
      cases rest with
      | nil =>
          rw [List.length_nil] at hlength
          rw [if_neg (by omega), undecorated]
          rfl
      | cons t rest =>
          rw [List.length_cons] at hlength hn
          rw [if_pos (by omega)]
          have hfound := rules.decorationEnd?_found atStart h
          cases hdecoration : rules.decoration? atStart t rest with
          | none =>
              rw [hdecoration, FoundAt] at hfound
              have hrest := ih rest.length (by omega) false rest rfl h.tail
              rw [hfound, ok_bind, undecorated_kept hdecoration]
              dsimp only
              rw [h.item, ok_bind, hrest]
              rfl
          | some behind =>
              rw [hdecoration] at hfound
              obtain ⟨next, hnext, hbehind⟩ := hfound
              have hshorter := (decoration?_suffix hdecoration).length_le
              have hnextLength := hbehind.length
              have hrest :=
                ih behind.length (by omega) atStart behind rfl hbehind
              rw [hnext, ok_bind, undecorated_skipped hdecoration]
              dsimp only
              rw [if_pos (by omega), hrest]

theorem isDecorationOnlyByPosition_eq (rules : Rules) (ts : List Token) :
    rules.isDecorationOnlyByPosition ts = .ok (rules.isDecorationOnly ts) := by
  rw [isDecorationOnlyByPosition,
    rules.undecoratedFrom_eq true ts (RestAt.start ts)]
  rfl

/-- The modifiers end where the rest of the header starts. -/
theorem modifiersEnd_rest (rules : Rules) {ts : List Token}
    (rest : List Token) :
    ∀ {i : Nat}, RestAt ts i rest →
      ∃ j, rules.modifiersEnd ts i = .ok j
        ∧ RestAt ts j (rules.unmodified rest) := by
  fun_induction unmodified rules rest with
  | case1 t next rest hmodifier ih =>
      intro i h
      have hlength := h.length
      simp only [List.length_cons] at hlength
      rw [modifiersEnd, if_pos (by omega), h.item, ok_bind, h.item_next,
        ok_bind, if_pos hmodifier]
      exact ih h.tail
  | case2 t next rest hmodifier =>
      intro i h
      have hlength := h.length
      simp only [List.length_cons] at hlength
      rw [modifiersEnd, if_pos (by omega), h.item, ok_bind, h.item_next,
        ok_bind, if_neg hmodifier]
      exact ⟨i, rfl, h⟩
  | case3 rest hshort =>
      intro i h
      have hlength := h.length
      have hone := length_lt_two hshort
      rw [modifiersEnd, if_neg (by omega)]
      exact ⟨i, rfl, h⟩

theorem unmodifiedByPosition_eq (rules : Rules) (ts : List Token) :
    rules.unmodifiedByPosition ts = .ok (rules.unmodified ts) := by
  obtain ⟨i, hi, hrest⟩ := rules.modifiersEnd_rest ts (RestAt.start ts)
  rw [unmodifiedByPosition, hi, ok_bind, hrest.drop]
  rfl

end Rules

-- =========================================================== classes

/-- The names behind a class keyword are collected with the position
behind them. -/
theorem classNamesFrom_rest {ts : List Token} (rest : List Token) :
    ∀ {i : Nat}, RestAt ts i rest →
      ∃ j, classNamesFrom ts i = .ok ((classNames rest).1, j)
        ∧ RestAt ts j (classNames rest).2 := by
  induction hn : rest.length using Nat.strongRecOn generalizing rest with
  | ind n ih =>
      intro i h
      have hlength := h.length
      rw [classNamesFrom]
      cases rest with
      | nil =>
          rw [List.length_nil] at hlength
          rw [if_neg (by omega), classNames]
          exact ⟨i, rfl, h⟩
      | cons t rest =>
          rw [List.length_cons] at hlength hn
          rw [if_pos (by omega), h.item, ok_bind, classNames]
          have htail := ih rest.length (by omega) rest rfl h.tail
          split
          · next hangle =>
            obtain ⟨j, hj, hlt, hbehind⟩ :=
              angleEnd_rest h (beq_iff_eq.1 hangle)
            have hshorter := (skipAngle_suffix rest).length_le
            rw [hj, ok_bind, if_pos hlt]
            exact ih _ (by omega) (skipAngle rest) rfl hbehind
          · split
            · exact htail
            · split
              · exact ⟨i, rfl, h⟩
              · obtain ⟨j, hj, hbehind⟩ := htail
                refine ⟨j, ?_, hbehind⟩
                rw [hj]
                rfl

/-- The class keywords end at the first token that is none. -/
theorem Rules.classKeywordsEnd_rest (rules : Rules) {ts : List Token}
    (rest : List Token) :
    ∀ {i : Nat}, RestAt ts i rest →
      ∃ j, rules.classKeywordsEnd ts i = .ok j
        ∧ RestAt ts j
          (rest.dropWhile fun t => rules.classKeywords.contains t.text) := by
  induction rest with
  | nil =>
      intro i h
      have hlength := h.length
      rw [List.length_nil] at hlength
      rw [classKeywordsEnd, if_neg (by omega)]
      exact ⟨i, rfl, h⟩
  | cons t rest ih =>
      intro i h
      have hlength := h.length
      rw [List.length_cons] at hlength
      rw [classKeywordsEnd, if_pos (by omega), h.item, ok_bind,
        List.dropWhile_cons]
      split
      · exact ih h.tail
      · exact ⟨i, rfl, h⟩

theorem lastNameByPosition_eq (names : List String) :
    lastNameByPosition names = .ok (names.getLastD "") := by
  cases names with
  | nil => rfl
  | cons name names =>
      show lastItem (name :: names) = _
      rw [lastItem_eq List.getLast?_cons, List.getLastD_eq_getLast?,
        List.getLast?_cons]
      rfl

/-- A text that occurs is found where the rest starts with it. -/
theorem textPosition_rest {text : String} {ts : List Token}
    (rest : List Token) :
    ∀ {i : Nat}, RestAt ts i rest → rest.any (·.text == text) = true →
      ∃ j, textPosition text ts i = .ok j
        ∧ RestAt ts j (rest.dropWhile (·.text != text)) := by
  induction rest with
  | nil => intro i h hany; cases hany
  | cons t rest ih =>
      intro i h hany
      rw [textPosition, h.positions_cons, firstPosition, h.item, ok_bind,
        pure_eq_ok, ok_bind, List.dropWhile_cons]
      cases ht : t.text == text with
      | true => exact ⟨i, rfl, by rw [bne, ht]; exact h⟩
      | false =>
          rw [List.any_cons, ht, Bool.false_or] at hany
          rw [bne, ht]
          exact ih h.tail hany

/-- The name behind `for`, if there is one, replaces the name before it. -/
theorem implementedName_eq {ts rest : List Token} {i : Nat}
    (h : RestAt ts i rest) (name : String) :
    implementedName ts i name = .ok ((nameAfterFor? rest).getD name) := by
  rw [implementedName, h.drop, nameAfterFor?]
  split
  · next hany =>
    obtain ⟨j, hj, hat⟩ := textPosition_rest rest h hany
    rw [hj, ok_bind]
    cases hrest : rest.dropWhile (·.text != "for") with
    | nil =>
        rw [List.dropWhile_eq_nil_iff] at hrest
        obtain ⟨t, hmem, ht⟩ := List.any_eq_true.1 hany
        exact absurd (hrest t hmem) (by rw [bne, ht]; decide)
    | cons keyword rest =>
        rw [hrest] at hat
        rw [hat.tail.holdsAt, ok_bind]
        cases rest with
        | nil => rfl
        | cons word rest =>
            rw [List.head?_cons, Option.any_some]
            dsimp only
            split
            · rw [hat.item_next]
              rfl
            · rfl
  · next hnone =>
    have hnil : rest.dropWhile (·.text != "for") = [] := by
      rw [List.dropWhile_eq_nil_iff]
      intro t hmem
      rw [bne, Bool.not_eq_true', Bool.eq_false_iff]
      exact fun ht => hnone (List.any_eq_true.2 ⟨t, hmem, ht⟩)
    rw [hnil]
    rfl

/-- A rest that declares no class without a body declares something else. -/
theorem declaresOther_eq {ts rest : List Token} {i : Nat}
    (h : RestAt ts i rest) (names : List String) :
    declaresOther names ts i = .ok (!declaresBodiless names rest) := by
  rw [declaresOther, declaresBodiless, h.holdsAt, bne]
  cases names.length == 1 with
  | false => rfl
  | true =>
      cases rest with
      | nil => rfl
      | cons t rest => rfl

-- ========================================================== keywords

/-- Whether no keyword is a bracket. -/
def Rules.keywordsFlat (rules : Rules) : Bool :=
  (rules.classKeywords ++ rules.functionKeywords).all fun keyword =>
    !(["(", ")", "[", "]", "\x7b", "\x7d"].contains keyword)

/-- In such a table, keywords open and close no brackets. -/
theorem Rules.keywordsFlat_token {rules : Rules}
    (hflat : rules.keywordsFlat = true) {t : Token}
    (h : t.text ∈ rules.classKeywords ∨ t.text ∈ rules.functionKeywords) :
    t.isFlat = true := by
  have ht := List.all_eq_true.1 hflat t.text (List.mem_append.2 h)
  simp only [List.contains_cons, List.contains_nil, Bool.or_false,
    Bool.not_eq_true', Bool.or_eq_false_iff] at ht
  obtain ⟨hparen, hparen', hbracket, hbracket', hbrace, hbrace'⟩ := ht
  exact Token.isFlat_iff.2
    ⟨by rw [Token.opens, hparen, hbracket, hbrace]; rfl,
      by rw [Token.closes, hparen', hbracket', hbrace']; rfl⟩

/-- A token that is no bracket leaves the depth as it is. -/
theorem Token.depth_isFlat {t : Token} (h : t.isFlat = true) (depth : Nat) :
    t.depthAt depth = depth ∧ t.depthAfter (t.depthAt depth) = depth := by
  obtain ⟨hopens, hcloses⟩ := Token.isFlat_iff.1 h
  exact depthAfter_flat (Bool.eq_false_iff.1 hopens)
    (Bool.eq_false_iff.1 hcloses) depth

/-- The tokens around the first keyword of a header, which stands outside all
brackets. -/
theorem splitAtKeyword_parts {keywords notAfter : List String}
    {ts front back : List Token} {keyword : Token}
    (h : splitAtKeyword keywords notAfter ts = some (front, keyword, back)) :
    ts = front ++ keyword :: back
      ∧ keyword.depthAt (depthBehind 0 front) = 0
      ∧ keyword.text ∈ keywords := by
  obtain ⟨hts, hdepth, before, hkeyword⟩ := splitTop_parts ts h
  simp only [Bool.and_eq_true, List.contains_iff_mem] at hkeyword
  exact ⟨hts, hdepth, hkeyword.1.2⟩

/-- A split at texts cuts the tokens at one of them. -/
theorem splitAtText_parts {texts : List String} {ts front back : List Token}
    {t : Token} (h : splitAtText texts ts = some (front, t, back)) :
    ts = front ++ t :: back ∧ t.text ∈ texts := by
  obtain ⟨hts, -, -, ht⟩ := splitTop_parts ts h
  exact ⟨hts, List.contains_iff_mem.1 ht⟩

/-- A token that is no bracket does not change where the tokens behind it are
split. -/
theorem splitAtText_flat {texts : List String} {t : Token}
    (ht : t.isFlat = true) (hother : t.text ∉ texts) (ts : List Token) :
    splitAtText texts (t :: ts)
      = (splitAtText texts ts).map
          fun (front, found, back) => (t :: front, found, back) := by
  rw [splitAtText, splitTop, (Token.depth_isFlat ht 0).2, if_neg, splitAtText]
  · cases ts with
    | nil => rfl
    | cons next ts => rfl
  · rw [Bool.and_eq_true]
    exact fun h => hother (List.contains_iff_mem.1 h.2)

namespace Rules

/-- Whether a class keyword belongs to a return type is looked for behind the
keyword, which stands outside all brackets and is none. -/
theorem returnsClassByPosition_eq (rules : Rules) {front : List Token}
    (hdepth : depthBehind 0 front = 0) {keyword : Token}
    (hflat : keyword.isFlat = true) (back : List Token) (names : List String)
    (name : String) :
    rules.returnsClassByPosition (front ++ keyword :: back) front.length names
        name
      = .ok (rules.returnsClass keyword back names name) := by
  have hother : keyword.text ∉ ["("] := by
    intro hparen
    have hopens := (Token.isFlat_iff.1 hflat).1
    rw [Token.opens, List.mem_singleton.1 hparen] at hopens
    cases hopens
  rw [returnsClassByPosition, returnsClass, topPosition_eq _ front hdepth,
    splitAtText_flat hflat hother]
  cases rules.signatureFunctions with
  | false => rfl
  | true =>
      cases hsplit : splitAtText ["("] back with
      | none => rfl
      | some split =>
          obtain ⟨inner, paren, behind⟩ := split
          obtain ⟨rfl, -⟩ := splitAtText_parts hsplit
          have hlast : (front ++ keyword :: inner).getLast?
              = some (inner.getLastD keyword) := by
            rw [List.getLast?_append, List.getLast?_cons,
              List.getLastD_eq_getLast?]
            rfl
          have hitem := item_pred hlast (paren :: behind)
          rw [List.append_assoc, List.cons_append, List.length_append] at hitem
          simp only [Option.map_some, ok_bind, if_true, Bool.true_and]
          rw [if_pos (by rw [List.length_cons]; omega), hitem]
          rfl

/-- A class header read by positions declares the same class, and no position is
out of range. -/
theorem classShapeByPosition_eq {rules : Rules}
    (hflat : rules.keywordsFlat = true) (terminator : Terminator)
    (ts : List Token) :
    rules.classShapeByPosition terminator ts
      = .ok (rules.classShape? terminator ts) := by
  rw [classShapeByPosition, keywordPosition_eq, ok_bind, classShape?]
  cases hsplit : splitAtKeyword rules.classKeywords [".", "::", "?."] ts with
  | none => rfl
  | some split =>
      obtain ⟨front, keyword, back⟩ := split
      obtain ⟨rfl, hdepth, hkeyword⟩ := splitAtKeyword_parts hsplit
      have hkeywordFlat := keywordsFlat_token hflat (Or.inl hkeyword)
      rw [(Token.depth_isFlat hkeywordFlat _).1] at hdepth
      have hat : RestAt (front ++ keyword :: back) front.length
          (keyword :: back) := ⟨front, rfl, rfl⟩
      obtain ⟨first, hfirst, hnames⟩ :=
        rules.classKeywordsEnd_rest back hat.tail
      obtain ⟨behind, hbehind, hrest⟩ := classNamesFrom_rest _ hnames
      simp only [Option.map_some, hfirst, hbehind, ok_bind,
        lastNameByPosition_eq, implementedName_eq hat,
        rules.returnsClassByPosition_eq hdepth hkeywordFlat back]
      split
      · rfl
      · cases terminator with
        | body => rfl
        | statement =>
            rw [declaresOther_eq hrest, ok_bind]
            cases declaresBodiless _ _ with
            | false => rfl
            | true => rfl

end Rules

-- ========================================================= functions

/-- Read backwards, what precedes an angle group is a part of the tokens. -/
theorem beforeAngle_suffix {ts before : List Token} {depth : Nat}
    (h : beforeAngle depth ts = some before) : before <:+ ts := by
  fun_induction beforeAngle depth ts with
  | case1 => cases h
  | case2 _ t ts _ ih => exact (ih h).trans (List.suffix_cons t ts)
  | case3 t ts =>
      cases h
      exact List.suffix_cons t _
  | case4 t ts _ _ _ ih => exact (ih h).trans (List.suffix_cons t ts)
  | case5 _ t ts _ _ ih => exact (ih h).trans (List.suffix_cons t ts)

theorem skipAngleBack_suffix (ts : List Token) : skipAngleBack ts <:+ ts := by
  cases ts with
  | nil => exact List.suffix_refl []
  | cons t ts =>
      rw [skipAngleBack]
      split
      · cases hbefore : beforeAngle 0 ts with
        | none => exact List.nil_suffix
        | some before =>
            exact (beforeAngle_suffix hbefore).trans (List.suffix_cons t ts)
      · exact List.suffix_refl _

/-- Backwards, an angle group is passed over within the first tokens, or it
goes on through all of them. -/
theorem beforeAngle_append (ts behind : List Token) :
    ∀ depth, match beforeAngle depth ts with
      | some before =>
        beforeAngle depth (ts ++ behind) = some (before ++ behind)
      | none => ((beforeAngle depth (ts ++ behind)).getD []).length
          ≤ behind.length := by
  induction ts with
  | nil =>
      intro depth
      show ((beforeAngle depth behind).getD []).length ≤ behind.length
      cases hbefore : beforeAngle depth behind with
      | none => exact Nat.zero_le _
      | some before => exact (beforeAngle_suffix hbefore).length_le
  | cons t ts ih =>
      intro depth
      rw [List.cons_append, beforeAngle.eq_def,
        beforeAngle.eq_def depth (t :: _)]
      dsimp only
      cases t.text == ">" with
      | true => exact ih (depth + 1)
      | false =>
          cases t.text == "<" with
          | false => exact ih depth
          | true =>
              cases depth with
              | zero => rfl
              | succ depth => exact ih depth

/-- Taking an angle group off the end finds its start within the tokens, or
looks at what lies further in front. -/
theorem skipAngleBack_append (ts behind : List Token) :
    (∃ t before, skipAngleBack ts = t :: before
        ∧ skipAngleBack (ts ++ behind) = t :: (before ++ behind))
      ∨ skipAngleBack ts = []
        ∧ (skipAngleBack (ts ++ behind)).length ≤ behind.length := by
  cases ts with
  | nil => exact Or.inr ⟨rfl, (skipAngleBack_suffix behind).length_le⟩
  | cons t ts =>
      have happend := beforeAngle_append ts behind 0
      rw [List.cons_append, skipAngleBack, skipAngleBack]
      split
      · cases hbefore : beforeAngle 0 ts with
        | none =>
            rw [hbefore] at happend
            exact Or.inr ⟨rfl, happend⟩
        | some before =>
            rw [hbefore] at happend
            rw [happend]
            cases before with
            | nil => exact Or.inr ⟨rfl, Nat.le_refl _⟩
            | cons t before => exact Or.inl ⟨t, before, rfl, rfl⟩
      · exact Or.inl ⟨t, ts, rfl, rfl⟩

/-- The token that is left in front, and the one in front of it. -/
theorem item_skipAngleBack {front before : List Token} {t : Token}
    (h : skipAngleBack front.reverse = t :: before) (back : List Token) :
    item (front ++ back) before.length = .ok t
      ∧ itemBefore? (front ++ back) before.length = .ok before.head? := by
  obtain ⟨passed, hpassed⟩ := skipAngleBack_suffix front.reverse
  have hfront : front ++ back
      = before.reverse ++ t :: (passed.reverse ++ back) := by
    rw [← List.reverse_reverse front, ← hpassed, h]
    simp only [List.reverse_append, List.reverse_cons, List.append_assoc,
      List.cons_append, List.nil_append]
  rw [hfront, ← List.length_reverse]
  refine ⟨item_append .., ?_⟩
  rw [itemBefore?_append, List.getLast?_reverse]

/-- A function keyword read by positions declares the same function. -/
theorem Rules.keywordShapeByPosition_eq {rules : Rules}
    (hflat : rules.keywordsFlat = true) (ts : List Token) :
    rules.keywordShapeByPosition ts = .ok (rules.keywordShape? ts) := by
  rw [keywordShapeByPosition, keywordPosition_eq, ok_bind, keywordShape?]
  cases hsplit : splitAtKeyword rules.functionKeywords [".", "?."] ts with
  | none => rfl
  | some split =>
      obtain ⟨front, keyword, back⟩ := split
      obtain ⟨rfl, hdepth, hkeyword⟩ := splitAtKeyword_parts hsplit
      have hkeywordFlat := keywordsFlat_token hflat (Or.inr hkeyword)
      rw [(Token.depth_isFlat hkeywordFlat _).1] at hdepth
      have hbehind : depthBehind 0 (front ++ [keyword]) = 0 := by
        rw [depthBehind_concat, (Token.depth_isFlat hkeywordFlat _).2, hdepth]
      have htop := topPosition_eq ["("] (front ++ [keyword]) hbehind back
      rw [List.append_assoc, List.length_append] at htop
      simp only [List.singleton_append, List.length_singleton] at htop
      simp only [Option.map_some, htop, ok_bind]
      cases hparen : splitAtText ["("] back with
      | none => rfl
      | some split =>
          obtain ⟨inner, paren, behind⟩ := split
          obtain ⟨rfl, -⟩ := splitAtText_parts hparen
          have hts : front ++ keyword :: (inner ++ paren :: behind)
              = (front ++ keyword :: inner) ++ paren :: behind := by
            rw [List.append_assoc, List.cons_append]
          have hposition : front.length + 1 + inner.length
              = (front ++ keyword :: inner).length := by
            rw [List.length_append, List.length_cons]
            omega
          have hreverse : (front ++ keyword :: inner).reverse
              = inner.reverse ++ keyword :: front.reverse := by
            rw [List.reverse_append, List.reverse_cons, List.append_assoc,
              List.singleton_append]
          have hne : front ++ keyword :: inner ≠ [] := by simp
          simp only [Option.map_some, hts, hposition, calleePosition_eq hne,
            ok_bind]
          rcases skipAngleBack_append inner.reverse (keyword :: front.reverse)
            with ⟨t, before, hinner, hall⟩ | ⟨hinner, hall⟩
          · rw [← hreverse] at hall
            obtain ⟨hitem, -⟩ := item_skipAngleBack hall (paren :: behind)
            have hcallee : ((t :: (before ++ keyword :: front.reverse)).length
                - 1 : Int) = (before ++ keyword :: front.reverse).length := by
              rw [List.length_cons]
              omega
            rw [hall, hcallee, if_pos, hitem, hinner]
            · rfl
            · rw [List.length_append, List.length_cons, List.length_reverse]
              omega
          · -- the type arguments reach back to the keyword or further
            rw [← hreverse, List.length_cons, List.length_reverse] at hall
            rw [if_neg (by omega), hinner]
            rfl

/-- The specifier of a pure method is looked for only where two tokens stand. -/
theorem dropPureByPosition_eq (trailer : List Token) :
    dropPureByPosition trailer = .ok (dropPureSpecifier trailer) := by
  rw [dropPureSpecifier]
  split
  · next last sign rest hreverse =>
    have htrailer : trailer = rest.reverse ++ sign :: [last] := by
      rw [← List.reverse_reverse trailer, hreverse]
      simp only [List.reverse_cons, List.append_assoc, List.singleton_append]
    have hlength : trailer.length = rest.reverse.length + 2 := by
      rw [htrailer, List.length_append]
      rfl
    have hsign : item trailer (trailer.length - 2) = .ok sign := by
      rw [hlength, show ((rest.reverse.length + 2 : Nat) : Int) - 2
        = rest.reverse.length by omega, htrailer]
      exact item_append ..
    have hlast : item trailer (trailer.length - 1) = .ok last :=
      lastItem_eq (by rw [htrailer, List.getLast?_append]; rfl)
    have htake : trailer.take (trailer.length - 2) = rest.reverse := by
      rw [hlength, Nat.add_sub_cancel, htrailer, List.take_left]
    rw [dropPureByPosition, if_pos (by omega), hsign, ok_bind, hlast, ok_bind,
      htake]
    split
    · rfl
    · rfl
  · next hshort =>
    have hlength := length_lt_two hshort
    rw [List.length_reverse] at hlength
    rw [dropPureByPosition, if_neg (by omega)]
    rfl

namespace Rules

theorem endsTypeByPosition_eq (rules : Rules) {ts : List Token} {name : Int}
    {before : Option Token} (h : itemBefore? ts name = .ok before) :
    rules.endsTypeByPosition ts name = .ok (rules.endsType before) := by
  rw [endsTypeByPosition, h, ok_bind, endsType]
  cases before with
  | none => rfl
  | some before =>
      rw [Option.any_some]
      dsimp only
      rw [item_of_itemBefore? h]
      cases nonTypeWords.contains before.text with
      | true => rfl
      | false =>
          cases rules.controlKeywords.contains before.text with
          | true => rfl
          | false => rfl

/-- What stands behind the parameters is admitted alike; the token in front of
the name is looked up once more, and is in range if it was. -/
theorem admitsTrailerByPosition_eq (rules : Rules) (terminator : Terminator)
    (enclosing : ScopeKind) {ts : List Token} {name : Int}
    {before : Option Token} (h : itemBefore? ts name = .ok before)
    (trailer : List Token) :
    rules.admitsTrailerByPosition terminator enclosing ts name trailer
      = .ok (rules.admitsTrailer terminator enclosing before trailer) := by
  cases terminator with
  | body => rfl
  | statement =>
      rw [admitsTrailerByPosition, admitsTrailer]
      rw [dropPureByPosition_eq, ok_bind, rules.endsTypeByPosition_eq h]
      cases enclosing == .classLike with
      | true => rfl
      | false => rfl

/-- A signature read by positions declares the same function. The position of
the name may lie in front of the first token, and is then not looked up. -/
theorem signatureShapeByPosition_eq (rules : Rules) (terminator : Terminator)
    (enclosing : ScopeKind) (ts : List Token) :
    rules.signatureShapeByPosition terminator enclosing ts
      = .ok (rules.signatureShape? terminator enclosing ts) := by
  rw [signatureShapeByPosition, topPosition_start, ok_bind, signatureShape?]
  cases hsplit : splitAtText ["("] ts with
  | none => rfl
  | some split =>
      obtain ⟨front, paren, parameters⟩ := split
      obtain ⟨rfl, hparen⟩ := splitAtText_parts hsplit
      have hopens : paren.opens = true := by
        rw [Token.opens, List.mem_singleton.1 hparen]
        rfl
      have hat : RestAt (front ++ paren :: parameters) front.length
          (paren :: parameters) := ⟨front, rfl, rfl⟩
      rw [Option.map_some]
      dsimp only
      rcases List.eq_nil_or_concat front with rfl | ⟨init, last, hfront⟩
      · rfl
      · have hne : front ≠ [] := by
          rw [hfront, List.concat_eq_append]
          simp
        have hpos := List.length_pos_iff.2 hne
        rw [if_neg (by rw [beq_iff_eq]; omega), calleePosition_eq hne, ok_bind]
        cases hcallee : skipAngleBack front.reverse with
        | nil => rfl
        | cons name before =>
            obtain ⟨hitem, hbefore⟩ :=
              item_skipAngleBack hcallee (paren :: parameters)
            have hposition : ((name :: before).length - 1 : Int)
                = before.length := by
              rw [List.length_cons]
              omega
            rw [hposition, if_neg (by omega), calleeShapeByPosition, hitem,
              ok_bind, hbefore, ok_bind, closePosition_eq hat hopens]
            dsimp only
            split
            · rfl
            · split
              · rfl
              · split
                · rfl
                · split
                  · rfl
                  · cases hclose : afterClose 0 parameters with
                    | none => rfl
                    | some trailer =>
                        have hdrop := (restAt_afterClose hat.tail hclose).drop
                        rw [Option.map_some, ok_bind]
                        dsimp only
                        rw [hdrop, rules.admitsTrailerByPosition_eq terminator
                          enclosing hbefore, ok_bind]
                        split
                        · rfl
                        · rfl

end Rules

-- =========================================================== lambdas

theorem startsWithBarsByPosition_eq (ts : List Token) :
    startsWithBarsByPosition ts = .ok (startsWithBars (ts.map (·.text))) := by
  cases ts with
  | nil => rfl
  | cons first rest => rfl

/-- A closure between bars is recognised without leaving the header. -/
theorem isBarClosureByPosition_eq (ts : List Token) :
    isBarClosureByPosition ts = .ok (isBarClosure ts) := by
  rw [isBarClosureByPosition, (RestAt.start ts).holdsAt, ok_bind,
    startsWithBarsByPosition_eq, startsWithBarsByPosition_eq, isBarClosure]
  cases ts with
  | nil => rfl
  | cons first rest =>
      rw [List.head?_cons, Option.any_some, List.map_cons]
      split
      · next hmove =>
        rw [beq_iff_eq.1 hmove]
        rfl
      · next hother =>
        rw [beq_iff_eq] at hother
        split
        · next heq => exact absurd (List.cons.inj heq).1 hother
        · rfl

/-- A list of captures is looked for only in a header that has a first token. -/
theorem startsWithCapturesByPosition_eq {ts : List Token} (hne : ts ≠ []) :
    startsWithCapturesByPosition ts = .ok (startsWithCaptures ts) := by
  cases ts with
  | nil => exact absurd rfl hne
  | cons first rest =>
      have hfirst : item (first :: rest) 0 = .ok first := rfl
      rw [startsWithCapturesByPosition, hfirst, ok_bind, startsWithCaptures,
        pure_eq_ok]
      refine congrArg Except.ok ?_
      split
      · next htexts =>
        cases rest with
        | nil => cases (List.cons.inj htexts).2
        | cons next rest =>
            simp only [List.map_cons, List.cons.injEq] at htexts
            simp [htexts]
      · next hsingle htexts =>
        cases rest with
        | nil => simp [(List.cons.inj htexts).1]
        | cons next rest =>
            simp only [List.map_cons, List.cons.injEq] at htexts
            obtain ⟨hopen, rfl⟩ := htexts
            have hnext : next.text ≠ "[" := fun h =>
              hsingle _ (by rw [h])
            simp [hopen, hnext]
      · next hother =>
        have hopen : first.text ≠ "[" := fun h =>
          hother _ (by rw [List.map_cons, h])
        simp [hopen]

namespace Rules

/-- So a lambda is recognised without leaving a header that is not empty. -/
theorem isLambdaByPosition_eq (rules : Rules) (terminator : Terminator)
    {ts : List Token} (hne : ts ≠ []) :
    rules.isLambdaByPosition terminator ts
      = .ok (rules.barClosures && isBarClosure ts
          || rules.bracketLambdas && startsWithCaptures ts
            && terminator == .body) := by
  rw [isLambdaByPosition, isBarClosureByPosition_eq,
    startsWithCapturesByPosition_eq hne]
  cases rules.barClosures <;> cases isBarClosure ts
    <;> cases rules.bracketLambdas <;> rfl

/-- The two sides of an arrow read by positions declare the same function. -/
theorem arrowShapeByPosition_eq (rules : Rules) (terminator : Terminator)
    (enclosing : ScopeKind) (front : List Token) (arrow : Token)
    (back : List Token) :
    rules.arrowShapeByPosition terminator enclosing (front ++ arrow :: back)
        front.length
      = .ok (rules.arrowShape? terminator enclosing front back) := by
  cases terminator with
  | body =>
      rw [arrowShapeByPosition, arrowShape?]
      cases back with
      | nil =>
          have hlast : ((front ++ [arrow]).length : Int) - 1
              = front.length := by
            rw [List.length_append, List.length_singleton]
            omega
          rw [hlast, bne_self_eq_false]
          rfl
      | cons next back =>
          have hearlier : ((front ++ arrow :: next :: back).length : Int) - 1
              ≠ front.length := by
            rw [List.length_append, List.length_cons, List.length_cons]
            omega
          rw [if_pos (bne_iff_ne.2 hearlier.symm)]
          rfl
  | statement =>
      rw [arrowShapeByPosition, arrowShape?]
      split
      · rw [List.take_left, rules.signatureShapeByPosition_eq, ok_bind]
        cases rules.signatureShape? .statement enclosing front with
        | none => rfl
        | some found => rfl
      · rfl

/-- What is found by position is what an expression declares. -/
theorem shapeByPosition_eq {rules : Rules} (hflat : rules.keywordsFlat = true)
    (terminator : Terminator) (enclosing : ScopeKind) (signatures : Bool)
    {ts : List Token} (hne : ts ≠ []) :
    rules.shapeByPosition terminator enclosing signatures ts
      = .ok (rules.shape? terminator enclosing signatures ts) := by
  rw [shapeByPosition, topPosition_start, ok_bind, shape?]
  cases hsplit : splitAtText rules.lambdaArrows ts with
  | some split =>
      obtain ⟨front, arrow, back⟩ := split
      obtain ⟨rfl, -⟩ := splitAtText_parts hsplit
      exact rules.arrowShapeByPosition_eq terminator enclosing front arrow back
  | none =>
      rw [Option.map_none]
      dsimp only
      rw [rules.isLambdaByPosition_eq terminator hne, ok_bind,
        classShapeByPosition_eq hflat, keywordShapeByPosition_eq hflat,
        rules.signatureShapeByPosition_eq]
      cases rules.barClosures && isBarClosure ts with
      | true => rfl
      | false =>
          cases rules.bracketLambdas && startsWithCaptures ts
              && terminator == .body with
          | true => rfl
          | false =>
              cases rules.classShape? terminator ts with
              | some found => rfl
              | none =>
                  cases rules.keywordShape? ts with
                  | some found => rfl
                  | none =>
                      cases rules.signatureFunctions && signatures with
                      | true => rfl
                      | false => rfl

end Rules

-- ========================================================== analysis

/-- A split at the last of a text cuts the tokens there. -/
theorem splitLastText_parts {text : String} (ts : List Token) :
    ∀ {depth : Nat} {front back : List Token},
      splitLastText text depth ts = some (front, back) →
      ∃ t, ts = front ++ t :: back := by
  induction ts with
  | nil => intro depth front back h; cases h
  | cons first ts ih =>
      intro depth front back h
      rw [splitLastText] at h
      split at h
      · next hsplit =>
        cases h
        obtain ⟨t, rfl⟩ := ih hsplit
        exact ⟨t, rfl⟩
      · split at h
        · cases h
          exact ⟨first, rfl⟩
        · cases h

/-- A property is recognised by its first two tokens, looked up only where there
are three. -/
theorem isPropertyByPosition_eq (ts : List Token) :
    isPropertyByPosition ts = .ok (match ts with
      | key :: colon :: _ :: _ =>
        colon.text == ":" && (key.kind == .word || key.kind == .literal)
      | _ => false) := by
  match ts with
  | [] | [_] | [_, _] => rfl
  | key :: colon :: value :: rest =>
      have hcolon : item (key :: colon :: value :: rest) 1 = .ok colon := rfl
      have hkey : item (key :: colon :: value :: rest) 0 = .ok key := rfl
      rw [isPropertyByPosition, if_pos (by simp), hcolon, ok_bind, hkey,
        ok_bind]
      dsimp only
      cases colon.text == ":" with
      | true => rfl
      | false => rfl

/-- The two sides of an assignment, or the whole as the right side. -/
theorem sidesByPosition_eq (ts : List Token) :
    sidesByPosition ts = .ok (match splitAssignment ts with
      | some (left, right) => (some left, right)
      | none => (none, ts)) := by
  have hlast : firstPosition (isTopText ["="] ts) (positionsFrom ts 0).reverse
      = .ok ((splitLastText "=" 0 ts).map fun split => split.1.length) := by
    have htext : ∀ front t back, ts = front ++ t :: back →
        isTopText ["="] ts front.length
          = .ok (t.depthAt (depthBehind 0 front) == 0 && t.text == "=") := by
      rintro front t back rfl
      rw [isTopText_eq, List.contains_cons, List.contains_nil, Bool.or_false]
    have h := firstPosition_splitLastText ts htext ts [] rfl
    simp only [List.length_nil, Nat.zero_add] at h
    exact h
  rw [sidesByPosition, hlast, ok_bind, splitAssignment.eq_def]
  cases hsplit : splitLastText "=" 0 ts with
  | some split =>
      obtain ⟨left, right⟩ := split
      obtain ⟨t, rfl⟩ := splitLastText_parts ts hsplit
      have hright : RestAt (left ++ t :: right) (left.length + 1) right :=
        RestAt.tail ⟨left, rfl, rfl⟩
      rw [Option.map_some]
      dsimp only
      rw [List.take_left, hright.drop]
      rfl
  | none =>
      rw [Option.map_none]
      dsimp only
      rw [isPropertyByPosition_eq, ok_bind]
      match ts with
      | [] | [_] | [_, _] => rfl
      | key :: colon :: value :: rest =>
          dsimp only
          split
          · rfl
          · rfl

/-- The name that a left side gives is found by positions too. -/
theorem assignedNameByPosition_eq (left : List Token) :
    assignedNameByPosition left = .ok (assignedName left) := by
  rw [assignedNameByPosition, topPosition_start, ok_bind, assignedName]
  cases hsplit : splitAtText [":"] left with
  | none => rfl
  | some split =>
      obtain ⟨front, colon, back⟩ := split
      obtain ⟨rfl, -⟩ := splitAtText_parts hsplit
      rw [Option.map_some]
      dsimp only
      rw [List.take_left]
      rfl

namespace Rules

theorem unmodified_ne_nil (rules : Rules) {ts : List Token} (h : ts ≠ []) :
    rules.unmodified ts ≠ [] := by
  fun_induction unmodified rules ts with
  | case1 t next rest _ ih => exact ih (List.cons_ne_nil next rest)
  | case2 => exact h
  | case3 => exact h

theorem leftFunctionByPosition_eq {rules : Rules}
    (hflat : rules.keywordsFlat = true) (enclosing : ScopeKind)
    {left : List Token} (hne : left ≠ []) :
    rules.leftFunctionByPosition enclosing left
      = .ok (rules.leftFunction? enclosing left) := by
  rw [leftFunctionByPosition, unmodifiedByPosition_eq, ok_bind,
    shapeByPosition_eq hflat _ _ _ (rules.unmodified_ne_nil hne), ok_bind,
    leftFunction?, expressionShape?, if_neg (by rwa [List.isEmpty_iff])]
  cases rules.shape? .statement enclosing true (rules.unmodified left) with
  | none => rfl
  | some found =>
      obtain ⟨shape, label⟩ := found
      cases shape with
      | classLike => rfl
      | function => rfl

/-- An empty side is left out before its shape is looked for. -/
theorem expressionByPosition_eq {rules : Rules}
    (hflat : rules.keywordsFlat = true) (terminator : Terminator)
    (enclosing : ScopeKind) (signatures : Bool) (ts : List Token) :
    rules.expressionByPosition terminator enclosing signatures ts
      = .ok (rules.expressionShape? terminator enclosing signatures ts) := by
  rw [expressionByPosition, unmodifiedByPosition_eq, ok_bind, expressionShape?]
  cases ts with
  | nil => rfl
  | cons t ts =>
      have hne := rules.unmodified_ne_nil (List.cons_ne_nil t ts)
      rw [if_neg (by rwa [List.isEmpty_iff]), if_neg (by simp),
        shapeByPosition_eq hflat _ _ _ hne]

/-- So an undecorated expression read by positions declares the same thing. -/
theorem declarationByPosition_eq {rules : Rules}
    (hflat : rules.keywordsFlat = true) (terminator : Terminator)
    (enclosing : ScopeKind) (ts : List Token) :
    rules.declarationByPosition terminator enclosing ts
      = .ok (rules.declaration? terminator enclosing ts) := by
  rw [declarationByPosition, sidesByPosition_eq, ok_bind, declaration?]
  cases splitAssignment ts with
  | none =>
      dsimp only
      rw [givenNameByPosition, pure_eq_ok, ok_bind,
        expressionByPosition_eq hflat, ok_bind, Option.isNone_none,
        Bool.true_or]
      cases rules.expressionShape? terminator enclosing true ts with
      | none => rfl
      | some found => rfl
  | some sides =>
      obtain ⟨left, right⟩ := sides
      dsimp only
      rw [givenNameByPosition, assignedNameByPosition_eq, ok_bind,
        expressionByPosition_eq hflat, ok_bind, Option.isNone_some,
        Bool.false_or]
      cases rules.expressionShape? terminator enclosing (terminator == .body)
          right with
      | some found => rfl
      | none =>
          dsimp only
          cases left with
          | nil =>
              cases terminator with
              | body => rfl
              | statement => rfl
          | cons t left =>
              rw [leftFunctionByPosition_eq hflat enclosing
                (List.cons_ne_nil t left)]
              cases terminator with
              | body => rfl
              | statement => rfl

/-- Reading a header by position never fails, and finds what the header
declares. -/
theorem analyzeByPosition_eq {rules : Rules}
    (hflat : rules.keywordsFlat = true) (terminator : Terminator)
    (enclosing : ScopeKind) (header : List Token) :
    rules.analyzeByPosition terminator enclosing header
      = .ok (rules.analyzeHeader terminator enclosing header) := by
  obtain ⟨i, hi, hrest⟩ := innermostPosition_rest rules.barClosures header
  rw [analyzeByPosition, hi, ok_bind, analyzeHeader]
  dsimp only
  rw [hrest.drop]
  cases innermost rules.barClosures header with
  | nil => rfl
  | cons first rest =>
      have hfirst : item (first :: rest) 0 = .ok first := rfl
      rw [if_neg (by simp), hfirst, ok_bind,
        rules.undecoratedFrom_eq true _ (RestAt.start _), ok_bind]
      dsimp only
      cases rules.undecorated true (first :: rest) with
      | nil => rfl
      | cons t expr =>
          rw [if_neg (by simp), declarationByPosition_eq hflat]
          rfl

/-- Every header can be read by position: no access is out of range, no loop
stands still, and the result is that of the analysis. -/
structure ReadsByPosition (rules : Rules) : Prop where
  header : ∀ terminator enclosing header,
    rules.analyzeByPosition terminator enclosing header
      = .ok (rules.analyzeHeader terminator enclosing header)
  decorations : ∀ header,
    rules.isDecorationOnlyByPosition header
      = .ok (rules.isDecorationOnly header)

end Rules

/-- Whatever options are set, a dialect reads its headers by position. -/
theorem Dialect.readsByPosition (dialect : Dialect) {options : ScanOptions}
    {rules : Rules} (h : dialect.rules.withOptions options = .ok rules) :
    rules.ReadsByPosition := by
  obtain ⟨markers, rfl⟩ := withOptions_eq h
  have hflat : dialect.rules.keywordsFlat = true := by
    cases dialect <;> decide
  exact ⟨Rules.analyzeByPosition_eq hflat,
    Rules.isDecorationOnlyByPosition_eq _⟩

end Marginalia
