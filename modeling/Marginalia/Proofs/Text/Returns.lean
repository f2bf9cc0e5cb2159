/-
Line feeds with a carriage return in front.

`crlf` writes every line feed of a text that way, and `lf` takes it back. A
place of the text moves on by the number of line feeds before it (`placed`),
so places keep their order, and what stands at a place is written the same
way (`drop_placed`). What holds no white space stands in front of a text just
when it does so here (`isPrefixOf_crlf`).
-/
import Marginalia.Text.Blank
import Mathlib.Data.List.Basic
import Mathlib.Data.List.Chain
import Mathlib.Data.List.TakeWhile

namespace Marginalia.Text

/-- The text with a carriage return in front of every line feed. -/
def crlf : List Char → List Char
  | [] => []
  | c :: cs => if c = '\n' then '\r' :: '\n' :: crlf cs else c :: crlf cs

/-- The text with every carriage return and line feed as a line feed alone. -/
def lf : List Char → List Char
  | [] => []
  | '\r' :: '\n' :: cs => '\n' :: lf cs
  | c :: cs => c :: lf cs

@[simp] theorem crlf_nil : crlf [] = [] := rfl

@[simp] theorem crlf_newline (cs : List Char) :
    crlf ('\n' :: cs) = '\r' :: '\n' :: crlf cs := rfl

/-- Any other character stays as it is. -/
theorem crlf_cons {c : Char} (h : c ≠ '\n') (cs : List Char) :
    crlf (c :: cs) = c :: crlf cs :=
  if_neg h

/-- Carriage returns are put in line by line. -/
theorem crlf_append (front back : List Char) :
    crlf (front ++ back) = crlf front ++ crlf back := by
  induction front with
  | nil => rfl
  | cons c front ih =>
      by_cases hc : c = '\n'
      · simp only [hc, List.cons_append, crlf_newline, ih]
      · simp only [List.cons_append, crlf_cons hc, ih]

/-- A text on one line has nothing to write otherwise. -/
theorem crlf_line {cs : List Char} (h : '\n' ∉ cs) : crlf cs = cs := by
  induction cs with
  | nil => rfl
  | cons c cs ih =>
      rw [List.mem_cons, not_or] at h
      rw [crlf_cons (Ne.symm h.1), ih h.2]

theorem newline_mem_crlf {cs : List Char} : '\n' ∈ crlf cs ↔ '\n' ∈ cs := by
  induction cs with
  | nil => rfl
  | cons c cs ih =>
      by_cases hc : c = '\n'
      · simp [hc]
      · rw [crlf_cons hc, List.mem_cons, List.mem_cons, ih]

/-- A text on one line comes from itself alone. -/
theorem crlf_eq_line {cs line : List Char} (hline : '\n' ∉ line) :
    crlf cs = line ↔ cs = line := by
  constructor
  · rintro rfl
    exact (crlf_line (mt newline_mem_crlf.2 hline)).symm
  · rintro rfl
    exact crlf_line hline

/-- A character is kept unless it is a carriage return in front of a line
feed. -/
theorem lf_cons {c : Char} {cs : List Char}
    (h : c = '\r' → cs.head? ≠ some '\n') :
    lf (c :: cs) = c :: lf cs := by
  rw [lf.eq_def]
  split
  · next heq => cases heq
  · next heq =>
    injection heq with hc hcs
    exact absurd (by rw [hcs]; rfl) (h hc)
  · next heq =>
    injection heq with hc hcs
    rw [hc, hcs]

/-- Where no carriage return stood, taking them out leaves the text. -/
theorem lf_crlf {cs : List Char} (h : '\r' ∉ cs) : lf (crlf cs) = cs := by
  induction cs with
  | nil => rfl
  | cons c cs ih =>
      rw [List.mem_cons, not_or] at h
      by_cases hc : c = '\n'
      · rw [hc, crlf_newline, lf, ih h.2]
      · rw [crlf_cons hc, lf_cons fun hr => absurd hr.symm h.1, ih h.2]

/-- No line feed comes from taking out carriage returns. -/
theorem lf_line {cs : List Char} (h : '\n' ∉ cs) : lf cs = cs := by
  induction cs with
  | nil => rfl
  | cons c cs ih =>
      rw [List.mem_cons, not_or] at h
      rw [lf_cons fun _ hhead => h.2 (List.mem_of_mem_head? hhead), ih h.2]

/-- A carriage return is put in front of a line feed, so the last
character stays. -/
theorem getLast?_crlf (cs : List Char) : (crlf cs).getLast? = cs.getLast? := by
  rcases List.eq_nil_or_concat cs with rfl | ⟨front, c, rfl⟩
  · rfl
  · rw [List.concat_eq_append, crlf_append, List.getLast?_append,
      List.getLast?_append]
    by_cases hc : c = '\n'
    · rw [hc]
      rfl
    · rw [crlf_cons hc]
      rfl

-- ================================================== what is in front

/-- Up to the first line feed nothing is put in. -/
theorem take_crlf {cs : List Char} {n : Nat} (h : '\n' ∉ cs.take n) :
    (crlf cs).take n = cs.take n ∧ (crlf cs).drop n = crlf (cs.drop n) := by
  have hsplit : crlf cs = cs.take n ++ crlf (cs.drop n) := by
    conv_lhs => rw [← List.take_append_drop n cs, crlf_append, crlf_line h]
  rcases Nat.le_total n cs.length with hle | hle
  · have hlength : (cs.take n).length = n := List.length_take_of_le hle
    rw [hsplit]
    exact ⟨List.take_left' hlength, List.drop_left' hlength⟩
  · rw [List.take_of_length_le hle] at h ⊢
    rw [crlf_line h, List.take_of_length_le hle, List.drop_eq_nil_of_le hle]
    exact ⟨rfl, rfl⟩

/-- What has no white space in it stands in front of the one text just when it
stands in front of the other. -/
theorem isPrefixOf_crlf {p : List Char} (hp : ∀ c ∈ p, isBlank c = false) :
    ∀ cs, p.isPrefixOf (crlf cs) = p.isPrefixOf cs := by
  induction p with
  | nil =>
      intro cs
      rw [List.isPrefixOf_nil_left, List.isPrefixOf_nil_left]
  | cons x p ih =>
      intro cs
      have hx := hp x List.mem_cons_self
      have ih := ih fun c hc => hp c (List.mem_cons_of_mem x hc)
      cases cs with
      | nil => rfl
      | cons c cs =>
          by_cases hc : c = '\n'
          · -- neither text starts with what is no white space
            have hreturn : (x == '\r') = false := by
              rw [beq_eq_false_iff_ne]
              rintro rfl
              exact absurd hx (by decide)
            have hnewline : (x == '\n') = false := by
              rw [beq_eq_false_iff_ne]
              rintro rfl
              exact absurd hx (by decide)
            rw [hc, crlf_newline, List.isPrefixOf_cons_cons,
              List.isPrefixOf_cons_cons, hreturn, hnewline, Bool.false_and,
              Bool.false_and]
          · rw [crlf_cons hc, List.isPrefixOf_cons_cons,
              List.isPrefixOf_cons_cons, ih]

/-- Nor does it matter to it that carriage returns are taken out. -/
theorem isPrefixOf_lf {p : List Char} (hp : ∀ c ∈ p, isBlank c = false) :
    ∀ cs, p.isPrefixOf (lf cs) = p.isPrefixOf cs := by
  induction p with
  | nil =>
      intro cs
      rw [List.isPrefixOf_nil_left, List.isPrefixOf_nil_left]
  | cons x p ih =>
      intro cs
      have hx := hp x List.mem_cons_self
      have hblank : ∀ c, isBlank c = true → (x == c) = false := by
        intro c hc
        rw [beq_eq_false_iff_ne]
        rintro rfl
        rw [hx] at hc
        cases hc
      fun_cases lf cs with
      | case1 => rfl
      | case2 cs =>
          rw [List.isPrefixOf_cons_cons, List.isPrefixOf_cons_cons,
            hblank '\n' (by decide), hblank '\r' (by decide), Bool.false_and,
            Bool.false_and]
      | case3 c cs =>
          rw [List.isPrefixOf_cons_cons, List.isPrefixOf_cons_cons,
            ih fun d hd => hp d (List.mem_cons_of_mem x hd)]

/-- What ends at white space ends where it did. -/
theorem takeWhile_crlf {p : Char → Bool} (hreturn : p '\r' = false)
    (hnewline : p '\n' = false) (cs : List Char) :
    (crlf cs).takeWhile p = cs.takeWhile p := by
  induction cs with
  | nil => rfl
  | cons c cs ih =>
      by_cases hc : c = '\n'
      · rw [hc, crlf_newline, List.takeWhile_cons_of_neg (by simp [hreturn]),
          List.takeWhile_cons_of_neg (by simp [hnewline])]
      · rw [crlf_cons hc, List.takeWhile_cons, List.takeWhile_cons, ih]

/-- What stands between a place and the line feed before it. -/
theorem takeWhile_reverse_crlf (cs : List Char) :
    (crlf cs).reverse.takeWhile (· ≠ '\n')
      = cs.reverse.takeWhile (· ≠ '\n') := by
  induction cs using List.reverseRecOn with
  | nil => rfl
  | append_singleton cs c ih =>
      by_cases hc : c = '\n'
      · simp [hc, crlf_append]
      · rw [crlf_append, crlf_cons hc, crlf_nil, List.reverse_concat,
          List.reverse_concat, List.takeWhile_cons, List.takeWhile_cons, ih]

/-- A text in which every line feed has a carriage return in front. -/
def Returned (cs : List Char) : Prop :=
  cs.IsChain fun a b => b = '\n' → a = '\r'

/-- With carriage returns put in, every line feed has one in front, and none is
first. -/
theorem returned_crlf (cs : List Char) :
    Returned (crlf cs) ∧ (crlf cs).head? ≠ some '\n' := by
  induction cs with
  | nil => exact ⟨.nil, by simp⟩
  | cons c cs ih =>
      have hcons : ∀ d, Returned (d :: crlf cs) := fun d =>
        List.isChain_cons.2 ⟨fun b hb hn => absurd (hn ▸ hb) ih.2, ih.1⟩
      by_cases hc : c = '\n'
      · subst hc
        rw [crlf_newline]
        exact ⟨List.isChain_cons_cons.2 ⟨fun _ => rfl, hcons '\n'⟩, by simp⟩
      · rw [crlf_cons hc]
        exact ⟨hcons c, by simpa using hc⟩

/-- Any part of such a text is such a text. -/
theorem Returned.part {cs part : List Char} (h : Returned cs)
    (hpart : part <:+: cs) :
    Returned part := by
  obtain ⟨front, back, rfl⟩ := hpart
  exact (List.isChain_append.1 (List.isChain_append.1 h).1).2.1

/-- A text that goes on over a line feed behind a backslash only. -/
def Continued (cs : List Char) : Prop :=
  ∀ front back, cs = front ++ '\n' :: back → front.getLast? = some '\\'

/-- A text without line feeds goes on over none. -/
theorem Continued.of_notMem {cs : List Char} (h : '\n' ∉ cs) :
    Continued cs := by
  rintro front back rfl
  exact absurd (List.mem_append_right front List.mem_cons_self) h

/-- Behind a backslash, any character may go on. -/
theorem Continued.backslash (c : Char) : Continued ['\\', c] := by
  intro front back hsplit
  match front with
  | [] => cases hsplit
  | [_] =>
      injection hsplit with hfirst
      rw [← hfirst]
      rfl
  | _ :: _ :: front => simp at hsplit

/-- Two such texts go on over a line feed behind a backslash only. -/
theorem Continued.append {cs ds : List Char} (hcs : Continued cs)
    (hds : Continued ds) : Continued (cs ++ ds) := by
  intro front back hsplit
  rcases List.append_eq_append_iff.1 hsplit with
    ⟨inside, rfl, hinside⟩ | ⟨rest, rfl, hrest⟩
  · rw [List.getLast?_append, hds inside back hinside, Option.some_or]
  · cases rest with
    | nil =>
        have hlast := hds [] back hrest.symm
        cases hlast
    | cons c rest =>
        injection hrest with hc
        subst hc
        exact hcs front rest rfl

/-- A line feed that has its carriage return does not stand behind a
backslash. -/
theorem Continued.line {cs : List Char} (hcontinued : Continued cs)
    (hreturned : Returned cs) : '\n' ∉ cs := by
  intro hmem
  obtain ⟨front, back, rfl⟩ := List.append_of_mem hmem
  have hlast := hcontinued front back rfl
  obtain ⟨before, rfl⟩ := List.getLast?_eq_some_iff.1 hlast
  rw [List.append_assoc, List.singleton_append] at hreturned
  have hchain := (List.isChain_append.1 hreturned).2.1
  exact absurd ((List.isChain_cons_cons.1 hchain).1 rfl) (by decide)

-- ============================================================ places

/-- Where a place of the text is with carriage returns. -/
def placed (text : List Char) (offset : Nat) : Nat :=
  (crlf (text.take offset)).length

@[simp] theorem placed_zero (text : List Char) : placed text 0 = 0 := by
  rw [placed, List.take_zero]
  rfl

/-- A place behind some characters, which are counted with their carriage
returns. -/
theorem placed_add {text chars rest : List Char} {offset : Nat}
    (h : text.drop offset = chars ++ rest) :
    placed text (offset + chars.length)
      = placed text offset + (crlf chars).length := by
  rw [placed, placed, List.take_add, h, List.take_left, crlf_append,
    List.length_append]

theorem crlf_split (text : List Char) (offset : Nat) :
    crlf text = crlf (text.take offset) ++ crlf (text.drop offset) := by
  rw [← crlf_append, List.take_append_drop]

/-- In front of a place stand the same characters, with their carriage
returns. -/
theorem take_placed (text : List Char) (offset : Nat) :
    (crlf text).take (placed text offset) = crlf (text.take offset) := by
  rw [crlf_split text offset, placed, List.take_left]

theorem drop_placed (text : List Char) (offset : Nat) :
    (crlf text).drop (placed text offset) = crlf (text.drop offset) := by
  rw [crlf_split text offset, placed, List.drop_left]

/-- Places keep their order. -/
theorem placed_lt {text : List Char} {a b : Nat} (hlt : a < b)
    (ha : a < text.length) :
    placed text a < placed text b := by
  obtain ⟨k, rfl⟩ := Nat.exists_eq_add_of_lt hlt
  have hdrop : text.drop a = text[a] :: text.drop (a + 1) :=
    List.drop_eq_getElem_cons ha
  rw [placed, placed, Nat.add_assoc, List.take_add, hdrop, List.take_succ_cons,
    crlf_append, List.length_append]
  by_cases hc : text[a] = '\n'
  · rw [hc, crlf_newline, List.length_cons]
    omega
  · rw [crlf_cons hc, List.length_cons]
    omega

/-- Places keep their order. -/
theorem placed_lt_iff {text : List Char} {a b : Nat} (ha : a < text.length)
    (hb : b ≤ text.length) : placed text a < placed text b ↔ a < b := by
  constructor
  · intro h
    by_contra hle
    rcases Nat.eq_or_lt_of_le (Nat.le_of_not_lt hle) with rfl | hlt
    · exact Nat.lt_irrefl _ h
    · exact Nat.lt_asymm h (placed_lt hlt (by omega))
  · intro h
    exact placed_lt h ha

end Marginalia.Text
