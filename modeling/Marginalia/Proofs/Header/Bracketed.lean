/-
Runs of tokens whose brackets match.

A header is read by what stands outside all brackets. `bracketDepth` follows
the brackets of a run and says how many are open behind it, unless one of
them closes nothing; `Bracketed` runs leave none open. As in the reading
itself, a closing bracket matches whatever was opened last.

`topTokens` are the tokens outside all brackets. What the searches for a
sign, a keyword or a comma find depends on these alone, and for a run that
starts with a bracketed one they come one after the other (`topTokens_append`),
so a header that is put together from bracketed parts is searched part by
part.
-/
import Marginalia.Proofs.Header.Innermost
import Mathlib.Data.List.Basic

namespace Marginalia

-- ========================================================== brackets

/-- The brackets open behind a run, `depth` being open before it. A bracket
that closes nothing has no depth behind it. -/
def bracketDepth (depth : Nat) : List Token → Option Nat
  | [] => some depth
  | t :: ts =>
    if t.opens then bracketDepth (depth + 1) ts
    else if t.closes then if depth = 0 then none
    else bracketDepth (depth - 1) ts
    else bracketDepth depth ts

/-- A run whose brackets match. -/
def Bracketed (ts : List Token) : Prop := bracketDepth 0 ts = some 0

instance (ts : List Token) : Decidable (Bracketed ts) :=
  inferInstanceAs (Decidable (bracketDepth 0 ts = some 0))

/-- A token that is no bracket. -/
def Token.isFlat (t : Token) : Bool := !t.opens && !t.closes

theorem Token.isFlat_iff {t : Token} :
    t.isFlat = true ↔ t.opens = false ∧ t.closes = false := by
  simp [isFlat]

/-- No token opens and closes. -/
theorem Token.closes_of_opens {t : Token} (h : t.opens = true) :
    t.closes = false := by
  simp only [opens, Bool.or_eq_true, beq_iff_eq] at h
  rcases h with (h | h) | h <;> simp [closes, h]

/-- The depth behind two runs, counted on from behind the first. -/
theorem bracketDepth_append (front back : List Token) :
    ∀ depth, bracketDepth depth (front ++ back)
      = (bracketDepth depth front).bind fun d => bracketDepth d back := by
  induction front with
  | nil =>
      intro depth
      rfl
  | cons t front ih =>
      intro depth
      rw [List.cons_append, bracketDepth, bracketDepth]
      split
      · exact ih (depth + 1)
      · split
        · split
          · rfl
          · exact ih (depth - 1)
        · exact ih depth

/-- Tokens that are no brackets leave the depth. -/
theorem bracketDepth_flat {ts : List Token} (h : ∀ t ∈ ts, t.isFlat = true)
    (depth : Nat) :
    bracketDepth depth ts = some depth := by
  induction ts with
  | nil => rfl
  | cons t ts ih =>
      obtain ⟨hopens, hcloses⟩ := Token.isFlat_iff.1 (h t List.mem_cons_self)
      rw [bracketDepth, hopens, hcloses]
      exact ih fun t' ht' => h t' (List.mem_cons_of_mem t ht')

/-- More brackets may be open around a run. -/
theorem bracketDepth_add {ts : List Token} (more : Nat) :
    ∀ {depth d : Nat}, bracketDepth depth ts = some d →
      bracketDepth (depth + more) ts = some (d + more) := by
  induction ts with
  | nil =>
      intro depth d h
      cases h
      rfl
  | cons t ts ih =>
      intro depth d h
      rw [bracketDepth] at h ⊢
      split at h
      · next hopens =>
        rw [if_pos hopens, Nat.add_right_comm]
        exact ih h
      · next hopens =>
        rw [if_neg hopens]
        split at h
        · next hcloses =>
          rw [if_pos hcloses]
          split at h
          · cases h
          · next hdepth =>
            rw [if_neg (by omega),
              show depth + more - 1 = depth - 1 + more by omega]
            exact ih h
        · next hcloses =>
          rw [if_neg hcloses]
          exact ih h

/-- Two runs with matching brackets are one. -/
theorem Bracketed.append {front back : List Token} (hfront : Bracketed front)
    (hback : Bracketed back) : Bracketed (front ++ back) := by
  rw [Bracketed, bracketDepth_append, hfront]
  exact hback

/-- A run without brackets has matching ones. -/
theorem Bracketed.of_flat {ts : List Token} (h : ∀ t ∈ ts, t.isFlat = true) :
    Bracketed ts :=
  bracketDepth_flat h 0

/-- A run in which every bracket that it opens is closed. -/
def Closed (ts : List Token) : Prop := ∃ depth, bracketDepth depth ts = some 0

theorem Bracketed.closed {ts : List Token} (h : Bracketed ts) :
    Closed ts := ⟨0, h⟩

/-- The end of a run that leaves no bracket open leaves none open. -/
theorem Closed.suffix {ts rest : List Token} (h : Closed ts)
    (hrest : rest <:+ ts) :
    Closed rest := by
  obtain ⟨depth, hdepth⟩ := h
  obtain ⟨front, rfl⟩ := hrest
  rw [bracketDepth_append] at hdepth
  obtain ⟨d, -, hd⟩ := Option.bind_eq_some_iff.1 hdepth
  exact ⟨d, hd⟩

-- ============================================================ groups

theorem Token.opens_paren {t : Token} (h : t.text = "(") : t.opens = true := by
  simp [opens, h]

theorem Token.closes_paren {t : Token} (h : t.text = ")") :
    t.opens = false ∧ t.closes = true := by
  simp [opens, closes, h]

/-- A bracketed run in parentheses is bracketed. -/
theorem Bracketed.group {inner : List Token} (h : Bracketed inner)
    {opening closing : Token} (hopening : opening.text = "(")
    (hclosing : closing.text = ")") :
    Bracketed (opening :: (inner ++ [closing])) := by
  have hinner : bracketDepth (0 + 1) inner = some (0 + 1) :=
    bracketDepth_add 1 h
  obtain ⟨hopens, hcloses⟩ := Token.closes_paren hclosing
  rw [Bracketed, bracketDepth, if_pos (Token.opens_paren hopening),
    bracketDepth_append, hinner, Option.bind_some, bracketDepth, hopens,
    hcloses]
  rfl

/-- Brackets that are all closed in a run close in it, whatever follows the
run: behind the one that closes the innermost but `k`, a rest of the run is
left, in which the others close. -/
theorem afterClose_rest (ts : List Token) :
    ∀ depth k, bracketDepth (depth + k + 1) ts = some 0 →
      ∃ rest, bracketDepth depth rest = some 0
        ∧ ∀ behind, afterClose k (ts ++ behind) = some (rest ++ behind) := by
  induction ts with
  | nil =>
      intro depth k h
      cases h
  | cons t ts ih =>
      intro depth k h
      simp only [List.cons_append, afterClose.eq_def k (t :: _)]
      rw [bracketDepth] at h
      split at h
      · next hopens =>
        simp only [if_pos hopens]
        exact ih depth (k + 1) h
      · next hopens =>
        simp only [if_neg hopens]
        split at h
        · next hcloses =>
          simp only [if_pos hcloses]
          rw [if_neg (Nat.succ_ne_zero _), Nat.add_sub_cancel] at h
          cases k with
          | zero => exact ⟨ts, h, fun _ => rfl⟩
          | succ k => exact ih depth k h
        · next hcloses =>
          simp only [if_neg hcloses]
          exact ih depth k h

/-- A run whose brackets match in front of a rest is passed over by the search
for a closing bracket. -/
theorem afterClose_append (behind : List Token) (ts : List Token) :
    ∀ {depth d : Nat}, bracketDepth depth ts = some d →
      afterClose depth (ts ++ behind) = afterClose d behind := by
  induction ts with
  | nil =>
      intro depth d h
      cases h
      rfl
  | cons t ts ih =>
      intro depth d h
      rw [bracketDepth] at h
      rw [List.cons_append, afterClose.eq_def]
      simp only
      split at h
      · next hopens =>
        rw [if_pos hopens]
        exact ih h
      · next hopens =>
        rw [if_neg hopens]
        split at h
        · next hcloses =>
          rw [if_pos hcloses]
          cases depth with
          | zero => cases h
          | succ depth => exact ih h
        · next hcloses =>
          rw [if_neg hcloses]
          exact ih h

/-- What follows the bracket that closes a group. -/
theorem Bracketed.afterClose {inner : List Token} (h : Bracketed inner)
    {closing : Token} (hclosing : closing.text = ")") (behind : List Token) :
    afterClose 0 (inner ++ closing :: behind) = some behind := by
  obtain ⟨hopens, hcloses⟩ := Token.closes_paren hclosing
  rw [afterClose_append _ inner h, Marginalia.afterClose, hopens, hcloses]
  rfl

-- ======================================================== top tokens

/-- The tokens of a run outside all brackets, `depth` being open before it. -/
def topTokens (depth : Nat) : List Token → List Token
  | [] => []
  | t :: ts =>
    if t.depthAt depth == 0 then
      t :: topTokens (t.depthAfter (t.depthAt depth)) ts
    else topTokens (t.depthAfter (t.depthAt depth)) ts

/-- An opening bracket stands at the depth outside, and leads further in. -/
theorem Token.depthAfter_opens {t : Token} (h : t.opens = true) (depth : Nat) :
    t.depthAt depth = depth ∧ t.depthAfter (t.depthAt depth) = depth + 1 := by
  simp [depthAt, depthAfter, h, closes_of_opens h]

/-- A closing one stands at the depth it leads to. -/
theorem Token.depthAfter_closes {t : Token} (hopens : ¬t.opens = true)
    (h : t.closes = true) (depth : Nat) :
    t.depthAt depth = depth - 1
      ∧ t.depthAfter (t.depthAt depth) = depth - 1 := by
  simp [depthAt, depthAfter, hopens, h]

/-- Any other token leaves the depth. -/
theorem Token.depthAfter_flat {t : Token} (hopens : ¬t.opens = true)
    (h : ¬t.closes = true) (depth : Nat) :
    t.depthAt depth = depth ∧ t.depthAfter (t.depthAt depth) = depth := by
  simp [depthAt, depthAfter, hopens, h]

/-- The depth behind a token is the one that matching its brackets gives. -/
theorem bracketDepth_cons {t : Token} {ts : List Token} {depth d : Nat}
    (h : bracketDepth depth (t :: ts) = some d) (rest : List Token) :
    bracketDepth depth (t :: rest)
      = bracketDepth (t.depthAfter (t.depthAt depth)) rest := by
  rw [bracketDepth] at h ⊢
  split at h
  · next hopens => rw [if_pos hopens, (Token.depthAfter_opens hopens depth).2]
  · next hopens =>
    rw [if_neg hopens]
    split at h
    · next hcloses =>
      rw [if_pos hcloses, (Token.depthAfter_closes hopens hcloses depth).2]
      split at h
      · cases h
      · next hdepth => rw [if_neg hdepth]
    · next hcloses => rw [if_neg hcloses,
        (Token.depthAfter_flat hopens hcloses depth).2]

theorem bracketDepth_tail {t : Token} {ts : List Token} {depth d : Nat}
    (h : bracketDepth depth (t :: ts) = some d) :
    bracketDepth (t.depthAfter (t.depthAt depth)) ts = some d :=
  (bracketDepth_cons h ts).symm.trans h

/-- Brackets open behind a token, with some more around, come from brackets open
before it. -/
theorem bracketDepth_before (t : Token) {depth d : Nat}
    (h : t.depthAfter (t.depthAt depth) ≤ d) :
    ∃ d', depth ≤ d' ∧ ∀ rest,
      bracketDepth d' (t :: rest) = bracketDepth d rest := by
  by_cases hopens : t.opens = true
  · rw [(Token.depthAfter_opens hopens depth).2] at h
    refine ⟨d - 1, by omega, fun rest => ?_⟩
    rw [bracketDepth, if_pos hopens, Nat.sub_add_cancel (by omega)]
  · by_cases hcloses : t.closes = true
    · rw [(Token.depthAfter_closes hopens hcloses depth).2] at h
      refine ⟨d + 1, by omega, fun rest => ?_⟩
      rw [bracketDepth, if_neg hopens, if_pos hcloses,
        if_neg (Nat.succ_ne_zero d)]
      rfl
    · rw [(Token.depthAfter_flat hopens hcloses depth).2] at h
      exact ⟨d, h, fun rest => by
        rw [bracketDepth, if_neg hopens, if_neg hcloses]⟩

/-- Behind a run whose brackets match, the tokens outside all brackets are
those of the rest. -/
theorem topTokens_append (back : List Token) (front : List Token) :
    ∀ {depth d : Nat}, bracketDepth depth front = some d →
      topTokens depth (front ++ back)
        = topTokens depth front ++ topTokens d back := by
  induction front with
  | nil =>
      intro depth d h
      cases h
      rfl
  | cons t front ih =>
      intro depth d h
      rw [List.cons_append, topTokens, topTokens, ih (bracketDepth_tail h)]
      split <;> rfl

/-- Without brackets every token is outside of them. -/
theorem topTokens_flat {ts : List Token} (h : ∀ t ∈ ts, t.isFlat = true) :
    topTokens 0 ts = ts := by
  induction ts with
  | nil => rfl
  | cons t ts ih =>
      obtain ⟨hopens, hcloses⟩ := Token.isFlat_iff.1 (h t List.mem_cons_self)
      obtain ⟨hat, hafter⟩ := Token.depthAfter_flat (Bool.eq_false_iff.1 hopens)
        (Bool.eq_false_iff.1 hcloses) 0
      rw [topTokens, hafter, hat,
        ih fun t' ht' => h t' (List.mem_cons_of_mem t ht')]
      rfl

/-- In front of a token outside all brackets, every bracket that was opened is
closed. -/
theorem topTokens_split {t : Token} (hflat : t.isFlat = true)
    {ts : List Token} :
    ∀ {depth : Nat}, t ∈ topTokens depth ts →
      ∃ front back, ts = front ++ t :: back
        ∧ ∃ d, depth ≤ d ∧ bracketDepth d front = some 0 := by
  induction ts with
  | nil =>
      intro depth ht
      cases ht
  | cons u ts ih =>
      intro depth ht
      have hrest : t ∈ topTokens (u.depthAfter (u.depthAt depth)) ts →
          ∃ front back, u :: ts = front ++ t :: back
            ∧ ∃ d, depth ≤ d ∧ bracketDepth d front = some 0 := by
        intro ht
        obtain ⟨front, back, rfl, d, hle, hfront⟩ := ih ht
        obtain ⟨d', hle', hd'⟩ := bracketDepth_before u hle
        exact ⟨u :: front, back, rfl, d', hle', (hd' front).trans hfront⟩
      rw [topTokens] at ht
      split at ht
      · next hat =>
        rcases List.mem_cons.1 ht with rfl | ht
        · -- a token that closes nothing stands at the depth before it
          have hdepth : t.depthAt depth = depth := by
            rw [Token.depthAt, (Token.isFlat_iff.1 hflat).2]
            rfl
          rw [hdepth, beq_iff_eq] at hat
          exact ⟨[], ts, rfl, 0, Nat.le_of_eq hat, rfl⟩
        · exact hrest ht
      · exact hrest ht

/-- Inside brackets nothing stands outside all of them. -/
theorem topTokens_inside {ts : List Token} :
    ∀ {depth d : Nat},
      bracketDepth depth ts = some d → topTokens (depth + 1) ts = [] := by
  induction ts with
  | nil =>
      intro depth d _
      rfl
  | cons t ts ih =>
      intro depth d h
      rw [bracketDepth] at h
      rw [topTokens]
      split at h
      · next hopens =>
        obtain ⟨hat, hafter⟩ := Token.depthAfter_opens hopens (depth + 1)
        rw [hafter, hat]
        exact ih h
      · next hopens =>
        split at h
        · next hcloses =>
          obtain ⟨hat, hafter⟩ :=
            Token.depthAfter_closes hopens hcloses (depth + 1)
          split at h
          · cases h
          · next hdepth =>
            have hstay : depth + 1 - 1 = depth - 1 + 1 := by omega
            rw [hafter, hat, hstay]
            exact ih h
        · next hcloses =>
          obtain ⟨hat, hafter⟩ :=
            Token.depthAfter_flat hopens hcloses (depth + 1)
          rw [hafter, hat]
          exact ih h

/-- Of a group only its parentheses stand outside all brackets. -/
theorem topTokens_group {opening closing : Token} {inner : List Token}
    (hopening : opening.text = "(") (hclosing : closing.text = ")")
    (hinside : Bracketed inner) (behind : List Token) :
    topTokens 0 (opening :: (inner ++ closing :: behind))
      = opening :: closing :: topTokens 0 behind := by
  have hinner : bracketDepth (0 + 1) inner = some (0 + 1) :=
    bracketDepth_add 1 hinside
  obtain ⟨hat, hafter⟩ := Token.depthAfter_opens (Token.opens_paren hopening) 0
  obtain ⟨hopens, hcloses⟩ := Token.closes_paren hclosing
  obtain ⟨hat', hafter'⟩ :=
    Token.depthAfter_closes (by rw [hopens]; exact Bool.false_ne_true)
    hcloses (0 + 1)
  rw [topTokens, hafter, hat, topTokens_append _ _ hinner,
    topTokens_inside hinside, topTokens, hafter', hat']
  rfl

-- ========================================================== searches

/-- There is no split if no token outside all brackets has the property. -/
theorem splitTop_none {p : Option Token → Token → Bool} (ts : List Token) :
    ∀ (before : Option Token) (depth : Nat),
      (∀ t ∈ topTokens depth ts, ∀ b, p b t = false) →
      splitTop p before depth ts = none := by
  induction ts with
  | nil =>
      intro before depth _
      rfl
  | cons t ts ih =>
      intro before depth h
      rw [topTokens] at h
      rw [splitTop]
      split at h
      · next hat =>
        rw [h t List.mem_cons_self before, Bool.and_false,
          if_neg Bool.false_ne_true,
          ih _ _ fun t' ht' => h t' (List.mem_cons_of_mem t ht')]
        rfl
      · next hat =>
        rw [Bool.eq_false_iff.2 hat, Bool.false_and, if_neg Bool.false_ne_true,
          ih _ _ h]
        rfl

/-- A search stops at the first token outside all brackets that it asks for. -/
theorem splitTop_found {p : Option Token → Token → Bool} {t : Token}
    (hp : ∀ b, p b t = true) (back : List Token) (front : List Token) :
    ∀ (before : Option Token) (depth : Nat), bracketDepth depth front = some 0 →
      (∀ t' ∈ topTokens depth front, ∀ b, p b t' = false) →
      splitTop p before depth (front ++ t :: back) = some (front, t, back) := by
  induction front with
  | nil =>
      intro before depth h _
      cases h
      rw [List.nil_append, splitTop, hp before]
      simp [Token.depthAt]
  | cons u front ih =>
      intro before depth hdepth h
      rw [topTokens] at h
      rw [List.cons_append, splitTop]
      split at h
      · next hat =>
        rw [h u List.mem_cons_self before, Bool.and_false,
          if_neg Bool.false_ne_true,
          ih _ _ (bracketDepth_tail hdepth) fun t' ht' =>
            h t' (List.mem_cons_of_mem u ht')]
        rfl
      · next hat =>
        rw [Bool.eq_false_iff.2 hat, Bool.false_and, if_neg Bool.false_ne_true,
          ih _ _ (bracketDepth_tail hdepth) h]
        rfl

/-- Nor is there one at texts that do not stand outside all brackets. -/
theorem splitAtText_none {texts : List String} {ts : List Token}
    (h : ∀ t ∈ topTokens 0 ts, t.text ∉ texts) : splitAtText texts ts = none :=
  splitTop_none ts none 0 fun t ht _ => by simpa using h t ht

/-- The first of them does split. -/
theorem splitAtText_found {texts : List String} {front back : List Token}
    {t : Token} (hfront : Bracketed front)
    (h : ∀ t' ∈ topTokens 0 front, t'.text ∉ texts) (ht : t.text ∈ texts) :
    splitAtText texts (front ++ t :: back) = some (front, t, back) :=
  splitTop_found (fun _ => by simpa using ht) back front none 0 hfront
    fun t' ht' _ => by simpa using h t' ht'

/-- There is no split at a keyword if no such word stands outside all
brackets. -/
theorem splitAtKeyword_none {keywords notAfter : List String} {ts : List Token}
    (h : ∀ t ∈ topTokens 0 ts, t.isWord = true → t.text ∉ keywords) :
    splitAtKeyword keywords notAfter ts = none := by
  refine splitTop_none ts none 0 fun t ht b => ?_
  cases hword : t.isWord with
  | false => rfl
  | true => simp [h t ht hword]

/-- Nor is there a last split at a text that does not. -/
theorem splitLastText_none {text : String} (ts : List Token) :
    ∀ depth, (∀ t ∈ topTokens depth ts, t.text ≠ text) →
    splitLastText text depth ts = none := by
  induction ts with
  | nil =>
      intro depth _
      rfl
  | cons t ts ih =>
      intro depth h
      rw [topTokens] at h
      rw [splitLastText]
      split at h
      · next hat =>
        have htext : (t.text == text) = false :=
          beq_false_of_ne (h t List.mem_cons_self)
        rw [ih _ fun t' ht' => h t' (List.mem_cons_of_mem t ht'), htext,
          Bool.and_false]
        rfl
      · next hat =>
        rw [ih _ h, Bool.eq_false_iff.2 hat]
        rfl

-- ============================================================ commas

/-- A run without commas outside all brackets is one argument. -/
theorem lastArgument_whole (found : List Token) (ts : List Token) :
    ∀ depth inBars, (∀ t ∈ topTokens depth ts, t.text ≠ ",") →
      lastArgument false found depth inBars ts = found := by
  induction ts with
  | nil =>
      intro depth inBars _
      rfl
  | cons t ts ih =>
      intro depth inBars h
      rw [topTokens] at h
      have hrest : ∀ t' ∈ topTokens (t.depthAfter (t.depthAt depth)) ts,
          t'.text ≠ "," := by
        intro t' ht'
        split at h
        · exact h t' (List.mem_cons_of_mem t ht')
        · exact h t' ht'
      rw [lastArgument]
      split
      · next hopens =>
        rw [(Token.depthAfter_opens hopens depth).2] at hrest
        exact ih _ _ hrest
      · next hopens =>
        split
        · next hcloses =>
          rw [(Token.depthAfter_closes hopens hcloses depth).2] at hrest
          exact ih _ _ hrest
        · next hcloses =>
          obtain ⟨hat, hafter⟩ := Token.depthAfter_flat hopens hcloses depth
          rw [hafter] at hrest
          rw [hat] at h
          rw [Bool.and_false, if_neg Bool.false_ne_true]
          split
          · next hcomma =>
            simp only [Bool.and_eq_true, beq_iff_eq] at hcomma
            rw [if_pos (by simpa using hcomma.1.2)] at h
            exact absurd hcomma.1.1 (h t List.mem_cons_self)
          · exact ih _ _ hrest

/-- The last argument stands behind the last comma. Fewer brackets than a run
closes may be open before it. -/
theorem lastArgument_comma {comma : Token} (hcomma : comma.text = ",")
    (back : List Token) (front : List Token) :
    ∀ (found : List Token) {depth d : Nat},
      bracketDepth depth front = some 0 → d ≤ depth →
      lastArgument false found d false (front ++ comma :: back)
        = lastArgument false back 0 false back := by
  induction front with
  | nil =>
      intro found depth d h hle
      cases h
      obtain rfl := Nat.le_zero.1 hle
      rw [List.nil_append, lastArgument]
      simp [Token.opens, Token.closes, hcomma]
  | cons t front ih =>
      intro found depth d h hle
      have hdepth := bracketDepth_tail h
      rw [List.cons_append, lastArgument]
      split
      · next hopens =>
        rw [(Token.depthAfter_opens hopens depth).2] at hdepth
        exact ih _ hdepth (by omega)
      · next hopens =>
        split
        · next hcloses =>
          rw [(Token.depthAfter_closes hopens hcloses depth).2] at hdepth
          exact ih _ hdepth (by omega)
        · next hcloses =>
          rw [(Token.depthAfter_flat hopens hcloses depth).2] at hdepth
          rw [Bool.and_false, if_neg Bool.false_ne_true]
          split
          · exact ih _ hdepth hle
          · exact ih _ hdepth hle

/-- Behind a run that closes `depth` brackets and all its own, the innermost
`depth` of those open before it are gone. -/
theorem innermostFrom_closed (rest : List Token) (ts : List Token) :
    ∀ {depth : Nat} (opened : List (List Token)),
      bracketDepth depth ts = some 0 →
      innermostFrom opened (ts ++ rest)
        = innermostFrom (opened.drop depth) rest := by
  induction ts with
  | nil =>
      intro depth opened h
      cases h
      rfl
  | cons t ts ih =>
      intro depth opened h
      rw [bracketDepth] at h
      rw [List.cons_append, innermostFrom]
      split at h
      · next hopens =>
        rw [if_pos hopens, ih _ h, List.drop_succ_cons]
      · next hopens =>
        rw [if_neg hopens]
        split at h
        · next hcloses =>
          rw [if_pos hcloses]
          split at h
          · cases h
          · next hdepth =>
            rw [ih _ h, List.drop_tail, Nat.sub_add_cancel (by omega)]
        · next hcloses =>
          rw [if_neg hcloses]
          exact ih _ h

/-- What stands in front of a rest with all its brackets closed leaves none open
in it. -/
theorem Closed.innermostFrom {ts : List Token} (h : Closed ts)
    (rest : List Token) :
    innermostFrom [] (ts ++ rest) = innermostFrom [] rest := by
  obtain ⟨depth, hdepth⟩ := h
  rw [innermostFrom_closed rest ts [] hdepth, List.drop_nil]

/-- Where all brackets are closed, the innermost expression is the last argument
of the whole. -/
theorem Closed.innermost {ts : List Token} (h : Closed ts) (bars : Bool) :
    innermost bars ts = lastArgument bars ts 0 false ts := by
  have hnone : Marginalia.innermostFrom [] ts = none := by
    have hrest := h.innermostFrom []
    rw [List.append_nil] at hrest
    exact hrest
  rw [Marginalia.innermost, hnone]
  rfl

/-- A header without open brackets, and without commas outside all brackets, is
analysed as a whole. -/
theorem Closed.innermost_whole {ts : List Token} (h : Closed ts)
    (hcommas : ∀ t ∈ topTokens 0 ts, t.text ≠ ",") :
    Marginalia.innermost false ts = ts := by
  rw [h.innermost, lastArgument_whole ts ts 0 false hcommas]

/-- Of a header without open brackets only what stands behind a comma outside
all brackets is analysed. -/
theorem Closed.innermost_comma {front back : List Token} {comma : Token}
    (h : Closed (front ++ comma :: back)) (hfront : Closed front)
    (hcomma : comma.text = ",") :
    Marginalia.innermost false (front ++ comma :: back)
      = lastArgument false back 0 false back := by
  obtain ⟨depth, hdepth⟩ := hfront
  rw [h.innermost,
    lastArgument_comma hcomma back front _ hdepth (Nat.zero_le depth)]

end Marginalia
