/-
Headers without their decorations.

A run in which nothing starts a decoration is its own undecorated form
(`undecorated_front`). Of a parenthesised group the decorations are taken out
inside the group: an annotation's arguments close where the brackets around
them have not closed yet, and an angle list that is still open at the end of
the group is none (`undecorated_append`). So a header is undecorated part by
part, like it is searched part by part.

Annotations are taken out with whole groups and leave matching brackets
(`undecorated_depth`). A template list need not, since angle brackets
close it whatever stands between them.
-/
import Marginalia.Header.Decoration
import Marginalia.Proofs.Header.Bracketed

namespace Marginalia

-- ========================================================= one token

/-- Where no decoration starts, the token stays. -/
theorem Rules.undecorated_kept {rules : Rules} {atStart : Bool} {t : Token}
    {ts : List Token} (h : rules.decoration? atStart t ts = none) :
    rules.undecorated atStart (t :: ts) = t :: rules.undecorated false ts := by
  rw [undecorated]
  split
  · next rest hrest =>
    rw [h] at hrest
    cases hrest
  · rfl

/-- Where a decoration starts, the reading goes on behind it. -/
theorem Rules.undecorated_skipped {rules : Rules} {atStart : Bool} {t : Token}
    {ts rest : List Token} (h : rules.decoration? atStart t ts = some rest) :
    rules.undecorated atStart (t :: ts) = rules.undecorated atStart rest := by
  rw [undecorated]
  split
  · next rest' hrest =>
    rw [h] at hrest
    cases hrest
    rfl
  · next hnone =>
    rw [h] at hnone
    cases hnone

/-- A token that is no decorator's sign, opens no attribute and is not the word
in front of a template list starts no decoration. -/
theorem Rules.decoration?_none {rules : Rules} {t : Token} {ts : List Token}
    (atStart : Bool) (hdecorator : rules.decorator ≠ some t.text)
    (hattribute : t.text ∉ rules.attributeOpeners)
    (htemplate : t.text = "template" → ∀ next ∈ ts.head?, next.text ≠ "<") :
    rules.decoration? atStart t ts = none := by
  have hafter : afterTemplate? t ts = none := by
    cases ts with
    | nil => rfl
    | cons angle ts =>
        rw [afterTemplate?]
        split
        · next hboth =>
          rw [Bool.and_eq_true, beq_iff_eq, beq_iff_eq] at hboth
          exact absurd hboth.2 (htemplate hboth.1 angle rfl)
        · rfl
  simp [decoration?, attribute?, hdecorator, hattribute, hafter]

/-- A template list is a decoration wherever it stands. -/
theorem Rules.decoration?_template {rules : Rules} {t angle : Token}
    {ts : List Token} (atStart : Bool)
    (hdecorator : rules.decorator ≠ some t.text)
    (hattribute : t.text ∉ rules.attributeOpeners) (htext : t.text = "template")
    (hangle : angle.text = "<") :
    rules.decoration? atStart t (angle :: ts) = some (skipAngle ts) := by
  have hafter : afterTemplate? t (angle :: ts) = some (skipAngle ts) := by
    rw [afterTemplate?, htext, hangle]
    rfl
  simp [decoration?, attribute?, hdecorator, hattribute, hafter]

/-- Where nothing opens attributes, decorations are the same everywhere. -/
theorem Rules.undecorated_atStart {rules : Rules}
    (hattributes : rules.attributeOpeners = []) (atStart : Bool)
    (ts : List Token) :
    rules.undecorated atStart ts = rules.undecorated false ts := by
  have hsame : ∀ atStart t ts,
      rules.decoration? atStart t ts = rules.decoration? false t ts := by
    intro atStart t ts
    simp [decoration?, attribute?, hattributes]
  fun_induction Rules.undecorated rules atStart ts with
  | case1 => rw [undecorated]
  | case2 atStart t ts rest hrest ih =>
      rw [undecorated_skipped ((hsame atStart t ts).symm.trans hrest)]
      exact ih
  | case3 atStart t ts hnone ih =>
      rw [undecorated_kept ((hsame atStart t ts).symm.trans hnone)]

/-- A run without the signs of decorations, in which an angle bracket at most
stands first, has no decorations, if none opens behind it. -/
theorem Rules.undecorated_front {rules : Rules} {behind : List Token}
    (hbehind : ∀ t ∈ behind.head?, t.text ≠ "<") {ts : List Token}
    (hsigns : ∀ t ∈ ts,
      rules.decorator ≠ some t.text ∧ t.text ∉ rules.attributeOpeners)
    (hangles : ∀ t ∈ ts.tail, t.text ≠ "<") :
    rules.undecorated false (ts ++ behind)
      = ts ++ rules.undecorated false behind := by
  induction ts with
  | nil => rfl
  | cons t ts ih =>
      obtain ⟨hdecorator, hattribute⟩ := hsigns t List.mem_cons_self
      have hnone : rules.decoration? false t (ts ++ behind) = none := by
        refine decoration?_none false hdecorator hattribute fun _ => ?_
        cases ts with
        | nil => exact hbehind
        | cons angle ts =>
            rintro next ⟨⟩
            exact hangles _ List.mem_cons_self
      rw [List.cons_append, undecorated_kept hnone, ih, List.cons_append]
      · exact fun t' ht' => hsigns t' (List.mem_cons_of_mem t ht')
      · exact fun t' ht' => hangles t' (List.mem_of_mem_tail ht')

/-- Behind the start of a header, a decoration is a decorator or a template
list. -/
theorem Rules.decoration?_cases {rules : Rules} {t : Token}
    {ts rest : List Token} (h : rules.decoration? false t ts = some rest) :
    (rules.decorator = some t.text ∧ afterDecorator? ts = some rest)
      ∨ afterTemplate? t ts = some rest := by
  unfold decoration? at h
  simp only [Option.orElse_eq_orElse, Option.orElse_eq_or, Bool.false_eq_true,
    if_false, Option.none_or] at h
  rcases Option.or_eq_some_iff.1 h with h | ⟨-, h⟩
  · split at h
    · next hsign => exact .inl ⟨beq_iff_eq.1 hsign, h⟩
    · cases h
  · exact .inr h

-- ============================================================ groups

/-- The rest of a group, and what follows it: the parenthesis that closes it
comes first, and no angle bracket closes anything. -/
structure BehindGroup (behind : List Token) : Prop where
  closing : ∃ t ts, behind = t :: ts ∧ t.text = ")" ∧ t.isWord = false
  angles : ∀ t ∈ behind, t.text ≠ ">"

/-- Without a sign that closes it, no angle bracket is closed. -/
theorem afterAngle_none {ts : List Token} (h : ∀ t ∈ ts, t.text ≠ ">") :
    ∀ depth, afterAngle depth ts = none := by
  induction ts with
  | nil =>
      intro depth
      rfl
  | cons t ts ih =>
      intro depth
      have hrest := ih fun t' ht' => h t' (List.mem_cons_of_mem t ht')
      have hne : (t.text == ">") = false :=
        beq_false_of_ne (h t List.mem_cons_self)
      rw [afterAngle.eq_def]
      simp only [hne, hrest, Bool.false_eq_true, if_false, ite_self]

/-- An angle list closes inside the group it opens in, or not at all. -/
theorem afterAngle_append {behind : List Token} (h : ∀ t ∈ behind, t.text ≠ ">")
    (ts : List Token) :
    ∀ depth, afterAngle depth (ts ++ behind)
      = (afterAngle depth ts).map (· ++ behind) := by
  induction ts with
  | nil =>
      intro depth
      rw [List.nil_append, afterAngle_none h]
      rfl
  | cons t ts ih =>
      intro depth
      rw [List.cons_append, afterAngle.eq_def,
        afterAngle.eq_def depth (t :: ts)]
      simp only
      split
      · exact ih (depth + 1)
      · split
        · cases depth with
          | zero => rfl
          | succ d => exact ih d
        · split
          · rfl
          · exact ih depth

/-- What follows without such a sign does not change where an angle group
ends. -/
theorem skipAngle_append {behind : List Token} (h : ∀ t ∈ behind, t.text ≠ ">")
    (ts : List Token) : skipAngle (ts ++ behind) = skipAngle ts ++ behind := by
  rw [skipAngle, skipAngle, afterAngle_append h]
  cases afterAngle 0 ts <;> rfl

/-- So the rest of a group does not change where template parameters end. -/
theorem afterTemplate?_append {behind : List Token} (h : BehindGroup behind)
    (t : Token) (ts : List Token) :
    afterTemplate? t (ts ++ behind)
      = (afterTemplate? t ts).map (· ++ behind) := by
  cases ts with
  | nil =>
      obtain ⟨closing, rest, rfl, htext, -⟩ := h.closing
      simp [afterTemplate?, htext]
  | cons angle ts =>
      rw [List.cons_append, afterTemplate?, afterTemplate?,
        skipAngle_append h.angles, apply_ite (Option.map _), Option.map_some,
        Option.map_none]

theorem afterDottedName_append {behind : List Token} (h : BehindGroup behind)
    (ts : List Token) :
    afterDottedName (ts ++ behind) = afterDottedName ts ++ behind := by
  obtain ⟨closing, rest, rfl, htext, hword⟩ := h.closing
  fun_induction afterDottedName ts with
  | case1 dot word ts hboth ih =>
      rw [List.cons_append, List.cons_append, afterDottedName, if_pos hboth]
      exact ih
  | case2 dot word ts hboth =>
      rw [List.cons_append, List.cons_append, afterDottedName, if_neg hboth]
  | case3 ts hshort =>
      match ts, hshort with
      | [], _ =>
          cases rest with
          | nil => rfl
          | cons next rest => simp [afterDottedName, htext]
      | [dot], _ => simp [afterDottedName, hword]
      | dot :: word :: more, hshort => exact absurd rfl (hshort dot word more)

/-- A group closes inside the brackets around it. -/
theorem skipGroup_inside {ts : List Token} {depth : Nat}
    (h : bracketDepth (depth + 1) ts = some 0) :
    bracketDepth depth (skipGroup ts) = some 0
      ∧ ∀ behind, skipGroup (ts ++ behind) = skipGroup ts ++ behind := by
  obtain ⟨rest, hdepth, hclose⟩ := afterClose_rest ts depth 0 h
  have hself := hclose []
  rw [List.append_nil, List.append_nil] at hself
  have hrest : skipGroup ts = rest := by rw [skipGroup, hself, Option.getD_some]
  rw [hrest]
  refine ⟨hdepth, fun behind => ?_⟩
  rw [skipGroup, hclose behind, Option.getD_some]

/-- Arguments are taken off whole, so the brackets still match. -/
theorem skipArguments_depth {ts : List Token} {depth : Nat}
    (h : bracketDepth depth ts = some 0) :
    bracketDepth depth (skipArguments ts) = some 0 := by
  cases ts with
  | nil => exact h
  | cons t ts =>
      rw [skipArguments]
      split
      · next hparen =>
        rw [bracketDepth, if_pos (Token.opens_paren (beq_iff_eq.1 hparen))] at h
        exact (skipGroup_inside h).1
      · exact h

/-- Arguments within a group end where they did. -/
theorem skipArguments_append {behind : List Token} (h : BehindGroup behind)
    {ts : List Token} (hts : Closed ts) :
    skipArguments (ts ++ behind) = skipArguments ts ++ behind := by
  cases ts with
  | nil =>
      obtain ⟨closing, rest, rfl, htext, -⟩ := h.closing
      simp [skipArguments, htext]
  | cons t ts =>
      rw [List.cons_append, skipArguments, skipArguments]
      split
      · next hparen =>
        obtain ⟨depth, hdepth⟩ := hts
        rw [bracketDepth, if_pos (Token.opens_paren (beq_iff_eq.1 hparen))]
          at hdepth
        exact (skipGroup_inside hdepth).2 behind
      · rfl

/-- A decorator ends inside the brackets around it. -/
theorem afterDecorator?_append {behind : List Token} (h : BehindGroup behind)
    {ts : List Token} (hts : Closed ts) :
    afterDecorator? (ts ++ behind)
      = (afterDecorator? ts).map (· ++ behind) := by
  cases ts with
  | nil =>
      obtain ⟨closing, rest, rfl, -, hword⟩ := h.closing
      simp [afterDecorator?, hword]
  | cons word ts =>
      have hdotted : Closed (afterDottedName ts) :=
        hts.suffix
          ((afterDottedName_suffix ts).trans (List.suffix_cons word ts))
      rw [List.cons_append, afterDecorator?, afterDecorator?,
        afterDottedName_append h, skipArguments_append h hdotted]
      split
      · rfl
      · split <;> rfl

/-- A decoration ends inside the brackets around it. -/
theorem Rules.decoration?_append (rules : Rules) {behind : List Token}
    (h : BehindGroup behind) (t : Token) {ts : List Token} (hts : Closed ts) :
    rules.decoration? false t (ts ++ behind)
      = (rules.decoration? false t ts).map (· ++ behind) := by
  unfold decoration?
  simp only [Option.orElse_eq_orElse, Option.orElse_eq_or, Bool.false_eq_true,
    if_false, Option.none_or, Option.map_or, afterTemplate?_append h,
    afterDecorator?_append h hts]
  split <;> rfl

/-- A group is undecorated by itself. -/
theorem Rules.undecorated_append {rules : Rules} {behind : List Token}
    (h : BehindGroup behind) {ts : List Token} (hts : Closed ts) :
    rules.undecorated false (ts ++ behind)
      = rules.undecorated false ts ++ rules.undecorated false behind := by
  generalize hstart : false = atStart at *
  fun_induction Rules.undecorated rules atStart ts with
  | case1 => rfl
  | case2 atStart t ts rest hrest ih =>
      subst hstart
      have happend :=
        rules.decoration?_append h t (hts.suffix (List.suffix_cons t ts))
      rw [hrest, Option.map_some] at happend
      rw [List.cons_append, undecorated_skipped happend]
      exact ih
        (hts.suffix ((decoration?_suffix hrest).trans (List.suffix_cons t ts)))
          rfl
  | case3 atStart t ts hnone ih =>
      subst hstart
      have hclosed := hts.suffix (List.suffix_cons t ts)
      have happend := rules.decoration?_append h t hclosed
      rw [hnone, Option.map_none] at happend
      rw [List.cons_append, undecorated_kept happend, ih hclosed rfl,
        List.cons_append]

-- ======================================================= annotations

theorem bracketDepth_flat_cons {t : Token} (h : t.isFlat = true) (depth : Nat)
    (ts : List Token) :
    bracketDepth depth (t :: ts) = bracketDepth depth ts := by
  obtain ⟨hopens, hcloses⟩ := Token.isFlat_iff.1 h
  rw [bracketDepth, hopens, hcloses]
  rfl

/-- A dotted name has no brackets, so they still match. -/
theorem afterDottedName_depth {ts : List Token}
    (hwords : ∀ t ∈ ts, t.isWord = true → t.isFlat = true) (depth : Nat) :
    bracketDepth depth (afterDottedName ts) = bracketDepth depth ts := by
  fun_induction afterDottedName ts with
  | case1 dot word ts h ih =>
      rw [Bool.and_eq_true, beq_iff_eq] at h
      have hdot : dot.isFlat = true := by
        simp [Token.isFlat, Token.opens, Token.closes, h.1]
      have hword : word.isFlat = true := hwords word (by simp) h.2
      rw [bracketDepth_flat_cons hdot, bracketDepth_flat_cons hword]
      exact ih fun t ht => hwords t (by simp [ht])
  | case2 | case3 => rfl

/-- A decorator takes whole groups with it. -/
theorem afterDecorator?_depth {ts rest : List Token}
    (hwords : ∀ t ∈ ts, t.isWord = true → t.isFlat = true) {depth : Nat}
    (h : bracketDepth depth ts = some 0)
    (hrest : afterDecorator? ts = some rest) :
    bracketDepth depth rest = some 0 := by
  cases ts with
  | nil => cases hrest
  | cons word ts =>
      rw [afterDecorator?] at hrest
      split at hrest
      · cases hrest
      · next hword =>
        split at hrest
        · cases hrest
          exact h
        · cases hrest
          apply skipArguments_depth
          rw [afterDottedName_depth fun t ht =>
            hwords t (List.mem_cons_of_mem word ht)]
          rw [bracketDepth_flat_cons
            (hwords word List.mem_cons_self (by simpa using hword))] at h
          exact h

/-- Decorators leave matching brackets behind, where neither they nor words are
brackets and no template list stands. -/
theorem Rules.undecorated_depth {rules : Rules}
    (hdecorator : ∀ t : Token, rules.decorator = some t.text → t.isFlat = true)
    {ts : List Token} (hwords : ∀ t ∈ ts, t.isWord = true → t.isFlat = true)
    (htemplate : ∀ t ∈ ts, t.text ≠ "template") :
    ∀ {depth : Nat}, bracketDepth depth ts = some 0 →
      bracketDepth depth (rules.undecorated false ts) = some 0 := by
  generalize hstart : false = atStart at *
  fun_induction Rules.undecorated rules atStart ts with
  | case1 =>
      intro depth h
      exact h
  | case2 atStart t ts rest hrest ih =>
      subst hstart
      intro depth h
      have hts : ∀ t' ∈ ts, t'.isWord = true → t'.isFlat = true :=
        fun t' ht' => hwords t' (List.mem_cons_of_mem t ht')
      have hsubset := (Rules.decoration?_suffix hrest).subset
      refine ih (fun t' ht' => hts t' (hsubset ht'))
        (fun t' ht' => htemplate t' (List.mem_cons_of_mem t (hsubset ht'))) rfl
          ?_
      rcases Rules.decoration?_cases hrest with ⟨hsign, hrest⟩ | hrest
      · rw [bracketDepth_flat_cons (hdecorator t hsign)] at h
        exact afterDecorator?_depth hts h hrest
      · cases ts with
        | nil => cases hrest
        | cons angle ts =>
            simp [afterTemplate?, htemplate t List.mem_cons_self] at hrest
  | case3 atStart t ts hnone ih =>
      subst hstart
      intro depth h
      have hrest : ∀ d, bracketDepth d ts = some 0 →
          bracketDepth d (rules.undecorated false ts) = some 0 :=
        fun d => ih (fun t' ht' => hwords t' (List.mem_cons_of_mem t ht'))
          (fun t' ht' => htemplate t' (List.mem_cons_of_mem t ht')) rfl
      rw [bracketDepth] at h ⊢
      split at h
      · next hopens =>
        rw [if_pos hopens]
        exact hrest _ h
      · next hopens =>
        rw [if_neg hopens]
        split at h
        · next hcloses =>
          rw [if_pos hcloses]
          split at h
          · cases h
          · next hdepth =>
            rw [if_neg hdepth]
            exact hrest _ h
        · next hcloses =>
          rw [if_neg hcloses]
          exact hrest _ h

theorem Token.isFlat_at {t : Token} (h : t.text = "@") : t.isFlat = true := by
  simp [isFlat, opens, closes, h]

/-- Annotations leave matching brackets behind. -/
theorem bracketDepth_undecorated {rules : Rules}
    (hdecorator : rules.decorator = some "@") {ts : List Token}
    (hwords : ∀ t ∈ ts, t.isWord = true → t.isFlat = true)
    (htemplate : ∀ t ∈ ts, t.text ≠ "template") :
    ∀ {depth : Nat}, bracketDepth depth ts = some 0 →
      bracketDepth depth (rules.undecorated false ts) = some 0 := by
  intro depth h
  refine Rules.undecorated_depth (fun t hsign => ?_) hwords htemplate h
  exact Token.isFlat_at (Option.some.inj (hsign.symm.trans hdecorator))

-- ========================================================= modifiers

/-- A token that is no modifier stays first. -/
theorem Rules.unmodified_kept {rules : Rules} {t : Token}
    (ht : t.text ∉ rules.modifierKeywords) (behind : List Token) :
    rules.unmodified (t :: behind) = t :: behind := by
  cases behind with
  | nil => rfl
  | cons next behind =>
      rw [unmodified]
      simp [ht]

/-- A modifier in front of a group is a name. -/
theorem Rules.unmodified_called {rules : Rules} (t : Token) {opening : Token}
    (hopening : opening.text = "(") (hword : opening.isWord = false)
    (behind : List Token) :
    rules.unmodified (t :: opening :: behind) = t :: opening :: behind := by
  have hfollows : opening.followsModifier = false := by
    simp [Token.followsModifier, hopening, hword]
  rw [unmodified, hfollows, Bool.and_false, if_neg Bool.false_ne_true]

/-- Modifiers are taken off in front of what stays. -/
theorem Rules.unmodified_append {rules : Rules} {t : Token}
    {behind : List Token} (h : rules.unmodified (t :: behind) = t :: behind)
    (front : List Token) :
    ∃ kept, kept <:+ front
      ∧ rules.unmodified (front ++ t :: behind) = kept ++ t :: behind := by
  induction front with
  | nil => exact ⟨[], List.suffix_refl _, h⟩
  | cons u front ih =>
      obtain ⟨kept, hsuffix, hrest⟩ := ih
      cases hfront : front ++ t :: behind with
      | nil => simp at hfront
      | cons next rest =>
          rw [hfront] at hrest
          rw [List.cons_append, hfront, unmodified]
          split
          · exact ⟨kept, hsuffix.trans (List.suffix_cons u front), hrest⟩
          · exact ⟨u :: front,
              List.suffix_refl _, by rw [List.cons_append, hfront]⟩

end Marginalia
