/-
White space at the end of a text, and its lines.

A line feed between two texts parts their lines (`splitLines_append`), and
joining lines and taking them apart again undo each other. The lines that hold
something are what is left of a text where empty lines come and go
(`filledLines_append`).
-/
import Marginalia.Text.Lines
import Mathlib.Data.List.Basic

namespace Marginalia

-- ========================================================== trimming

/-- Nothing is left where every character is taken. -/
theorem Text.dropRightWhile_eq_nil {p : Char → Bool} {cs : List Char} :
    Text.dropRightWhile p cs = [] ↔ ∀ c ∈ cs, p c = true := by
  induction cs with
  | nil => simp [Text.dropRightWhile]
  | cons c cs ih =>
      rw [Text.dropRightWhile]
      split
      · next hnil =>
        have hall := ih.1 hnil
        cases hp : p c with
        | true => simpa [hp] using hall
        | false => simp [hp]
      · next hne =>
        constructor
        · intro h
          cases h
        · intro h
          exact absurd (ih.2 fun d hd => h d (List.mem_cons_of_mem c hd)) hne

theorem Text.trimRight_eq_nil {cs : List Char} :
    Text.trimRight cs = [] ↔ ∀ c ∈ cs, Text.isBlank c = true :=
  Text.dropRightWhile_eq_nil

/-- What is dropped at the end of a text, and the last character that stays. -/
theorem Text.dropRightWhile_split (p : Char → Bool) (cs : List Char) :
    ∃ tail, cs = Text.dropRightWhile p cs ++ tail ∧ (∀ c ∈ tail, p c = true)
      ∧ ∀ c ∈ (Text.dropRightWhile p cs).getLast?, p c = false := by
  induction cs with
  | nil =>
      refine ⟨[], rfl, fun c hc => ?_, fun c hc => ?_⟩
      · cases hc
      · cases hc
  | cons c cs ih =>
      obtain ⟨tail, hcs, htail, hlast⟩ := ih
      rw [Text.dropRightWhile]
      split
      · next hnil =>
        rw [hnil, List.nil_append] at hcs
        subst hcs
        by_cases hc : p c = true
        · rw [if_pos hc]
          refine ⟨c :: cs, rfl, List.forall_mem_cons.2 ⟨hc, htail⟩,
            fun d hd => ?_⟩
          cases hd
        · rw [if_neg hc]
          refine ⟨cs, rfl, htail, fun d hd => ?_⟩
          rw [← Option.some.inj hd]
          exact Bool.eq_false_iff.2 hc
      · next rest hne =>
        refine ⟨tail, congrArg (c :: ·) hcs, htail, fun d hd => hlast d ?_⟩
        rwa [List.getLast?_cons_of_ne_nil hne] at hd

/-- A text whose last character stays is not changed. -/
theorem Text.dropRightWhile_eq_self {p : Char → Bool} {cs : List Char}
    (h : ∀ c ∈ cs.getLast?, p c = false) : Text.dropRightWhile p cs = cs := by
  obtain ⟨tail, hcs, htail, -⟩ := Text.dropRightWhile_split p cs
  cases hlast : tail.getLast? with
  | none =>
      rw [List.getLast?_eq_none_iff.1 hlast, List.append_nil] at hcs
      exact hcs.symm
  | some c =>
      have hc : c ∈ cs.getLast? := by
        rw [hcs, List.getLast?_append, hlast]
        rfl
      have hdropped := htail c (List.mem_of_mem_getLast? hlast)
      rw [h c hc] at hdropped
      cases hdropped

/-- An end that is taken whole does not matter. -/
theorem Text.dropRightWhile_append_nil {p : Char → Bool} {back : List Char}
    (h : Text.dropRightWhile p back = []) (front : List Char) :
    Text.dropRightWhile p (front ++ back) = Text.dropRightWhile p front := by
  induction front with
  | nil => exact h
  | cons c front ih =>
      rw [List.cons_append, Text.dropRightWhile, Text.dropRightWhile, ih]

/-- An end of which something is left is all that matters. -/
theorem Text.dropRightWhile_append {p : Char → Bool} {back : List Char}
    (h : Text.dropRightWhile p back ≠ []) (front : List Char) :
    Text.dropRightWhile p (front ++ back)
      = front ++ Text.dropRightWhile p back := by
  induction front with
  | nil => rfl
  | cons c front ih =>
      rw [List.cons_append, Text.dropRightWhile, ih]
      split
      · next hnil => exact absurd (List.append_eq_nil_iff.1 hnil).2 h
      · rfl

theorem Text.trimRight_length_le (cs : List Char) :
    (Text.trimRight cs).length ≤ cs.length := by
  unfold Text.trimRight
  induction cs with
  | nil => exact Nat.le_refl _
  | cons c cs ih =>
      rw [Text.dropRightWhile]
      split
      · split <;> simp
      · rw [List.length_cons, List.length_cons]
        exact Nat.succ_le_succ ih

/-- The last character left is one that is not taken. -/
theorem Text.getLast?_dropRightWhile {p : Char → Bool} {cs : List Char} :
    ∀ c ∈ (Text.dropRightWhile p cs).getLast?, p c = false := by
  obtain ⟨-, -, -, hlast⟩ := Text.dropRightWhile_split p cs
  exact hlast

theorem Text.dropRightWhile_isPrefix (p : Char → Bool) (cs : List Char) :
    Text.dropRightWhile p cs <+: cs := by
  obtain ⟨tail, hcs, -⟩ := Text.dropRightWhile_split p cs
  exact ⟨tail, hcs.symm⟩

/-- Trimming takes characters off the two ends only. -/
theorem Text.trimWhile_isInfix (p : Char → Bool) (cs : List Char) :
    Text.trimWhile p cs <:+: cs :=
  (Text.dropRightWhile_isPrefix p _).isInfix.trans
    (List.dropWhile_suffix p).isInfix

/-- The first character left is one that is not taken. -/
theorem Text.head?_trimWhile {p : Char → Bool} {cs : List Char} :
    ∀ c ∈ (Text.trimWhile p cs).head?, p c = false := by
  intro c hc
  obtain ⟨tail, htail⟩ := Text.dropRightWhile_isPrefix p (cs.dropWhile p)
  have hhead : (cs.dropWhile p).head? = some c := by
    rw [← htail, List.head?_append, ← Text.trimWhile, hc]
    rfl
  have hnot := List.head?_dropWhile_not p cs
  rw [hhead] at hnot
  exact hnot

/-- Where neither end has a character to take, nothing is taken. -/
theorem Text.trimWhile_eq_self {p : Char → Bool} {cs : List Char}
    (hhead : ∀ c ∈ cs.head?, p c = false)
    (hlast : ∀ c ∈ cs.getLast?, p c = false) :
    Text.trimWhile p cs = cs := by
  have hfront : cs.dropWhile p = cs := by
    cases cs with
    | nil => rfl
    | cons c cs => exact List.dropWhile_cons_of_neg (by simp [hhead c rfl])
  rw [Text.trimWhile, hfront, Text.dropRightWhile_eq_self hlast]

-- ============================================================= lines

theorem Text.splitLines_ne_nil (cs : List Char) : Text.splitLines cs ≠ [] := by
  cases cs with
  | nil => exact List.cons_ne_nil _ _
  | cons c cs =>
      rw [Text.splitLines]
      split
      · exact List.cons_ne_nil _ _
      · split <;> exact List.cons_ne_nil _ _

/-- A line feed in front ends an empty line. -/
theorem Text.splitLines_break (cs : List Char) :
    Text.splitLines ('\n' :: cs) = [] :: Text.splitLines cs := by
  rw [Text.splitLines]
  cases hcs : Text.splitLines cs with
  | nil => exact absurd hcs (Text.splitLines_ne_nil cs)
  | cons line lines => rfl

/-- Any other character in front belongs to the first line. -/
theorem Text.splitLines_cons {c : Char} (hc : c ≠ '\n') (cs : List Char) :
    ∃ line lines, Text.splitLines cs = line :: lines
      ∧ Text.splitLines (c :: cs) = (c :: line) :: lines := by
  cases hcs : Text.splitLines cs with
  | nil => exact absurd hcs (Text.splitLines_ne_nil cs)
  | cons line lines =>
      refine ⟨line, lines, rfl, ?_⟩
      rw [Text.splitLines, hcs]
      exact if_neg (by simpa using hc)

/-- A text without a line feed is one line. -/
theorem Text.splitLines_line {line : List Char} (h : '\n' ∉ line) :
    Text.splitLines line = [line] := by
  induction line with
  | nil => rfl
  | cons c line ih =>
      obtain ⟨hc, hline⟩ := not_or.1 (mt List.mem_cons.2 h)
      rw [Text.splitLines, ih hline]
      exact if_neg (by simpa using Ne.symm hc)

/-- A line feed parts the lines of what stands on either side of it. -/
theorem Text.splitLines_append (front back : List Char) :
    Text.splitLines (front ++ '\n' :: back)
      = Text.splitLines front ++ Text.splitLines back := by
  induction front with
  | nil => exact Text.splitLines_break back
  | cons c front ih =>
      by_cases hc : c = '\n'
      · rw [hc, List.cons_append, Text.splitLines_break,
          Text.splitLines_break, ih, List.cons_append]
      · obtain ⟨line, lines, hfront, hcons⟩ := Text.splitLines_cons hc front
        obtain ⟨line', lines', hwhole, hcons'⟩ :=
          Text.splitLines_cons hc (front ++ '\n' :: back)
        rw [ih, hfront, List.cons_append, List.cons.injEq] at hwhole
        obtain ⟨rfl, rfl⟩ := hwhole
        rw [List.cons_append, hcons', hcons, List.cons_append]

/-- There is no line feed in a line. -/
theorem Text.not_mem_splitLines {cs : List Char} :
    ∀ line ∈ Text.splitLines cs, '\n' ∉ line := by
  induction cs with
  | nil =>
      intro line hline
      rw [List.mem_singleton.1 hline]
      exact List.not_mem_nil
  | cons c cs ih =>
      intro line hline
      by_cases hc : c = '\n'
      · rw [hc, Text.splitLines_break] at hline
        rcases List.mem_cons.1 hline with rfl | hline
        · exact List.not_mem_nil
        · exact ih line hline
      · obtain ⟨first, lines, hcs, hcons⟩ := Text.splitLines_cons hc cs
        rw [hcs] at ih
        rw [hcons] at hline
        rcases List.mem_cons.1 hline with rfl | hline
        · exact List.not_mem_cons_of_ne_of_not_mem (Ne.symm hc)
            (ih first List.mem_cons_self)
        · exact ih line (List.mem_cons_of_mem first hline)

theorem Text.joinLines_cons (first second : List Char)
    (lines : List (List Char)) :
    Text.joinLines (first :: second :: lines)
      = first ++ '\n' :: Text.joinLines (second :: lines) :=
  rfl

/-- Lines are those of the text they are joined into. -/
theorem Text.splitLines_joinLines {first : List Char}
    {lines : List (List Char)} :
    (∀ line ∈ first :: lines, '\n' ∉ line) →
      Text.splitLines (Text.joinLines (first :: lines)) = first :: lines := by
  induction lines generalizing first with
  | nil =>
      intro h
      have hjoin : Text.joinLines [first] = first := List.append_nil _
      rw [hjoin]
      exact Text.splitLines_line (h first List.mem_cons_self)
  | cons second lines ih =>
      intro h
      rw [Text.joinLines_cons, Text.splitLines_append,
        Text.splitLines_line (h first List.mem_cons_self),
        ih fun line hline => h line (List.mem_cons_of_mem first hline)]
      rfl

/-- A text is made of its lines. -/
theorem Text.joinLines_splitLines (cs : List Char) :
    Text.joinLines (Text.splitLines cs) = cs := by
  induction cs with
  | nil => rfl
  | cons c cs ih =>
      by_cases hc : c = '\n'
      · obtain ⟨line, lines, hcs⟩ :=
          List.exists_cons_of_ne_nil (Text.splitLines_ne_nil cs)
        rw [hc, Text.splitLines_break]
        rw [hcs] at ih ⊢
        rw [Text.joinLines_cons, ih, List.nil_append]
      · obtain ⟨line, lines, hcs, hcons⟩ := Text.splitLines_cons hc cs
        rw [hcs] at ih
        rw [hcons]
        cases lines with
        | nil =>
            rw [← ih]
            rfl
        | cons second lines =>
            rw [Text.joinLines_cons, List.cons_append,
              ← Text.joinLines_cons, ih]

-- ====================================================== filled lines

/-- The lines of a text that are not empty. -/
def Text.filledLines (cs : List Char) : List (List Char) :=
  (Text.splitLines cs).filter (!·.isEmpty)

/-- The lines with characters, of two texts with a line feed between them. -/
theorem Text.filledLines_append (front back : List Char) :
    Text.filledLines (front ++ '\n' :: back)
      = Text.filledLines front ++ Text.filledLines back := by
  rw [filledLines, Text.splitLines_append, List.filter_append, filledLines,
    filledLines]

theorem Text.filledLines_break (cs : List Char) :
    Text.filledLines ('\n' :: cs) = Text.filledLines cs :=
  Text.filledLines_append [] cs

/-- Line feeds alone make no line with characters. -/
theorem Text.filledLines_breaks {cs : List Char}
    (h : ∀ c ∈ cs, (c == '\n') = true) :
    Text.filledLines cs = [] := by
  induction cs with
  | nil => rfl
  | cons c cs ih =>
      obtain ⟨hc, hcs⟩ := List.forall_mem_cons.1 h
      rw [beq_iff_eq.1 hc, Text.filledLines_break]
      exact ih hcs

/-- Line feeds at either end of a text part no lines that hold something. -/
theorem Text.filledLines_trimWhile (cs : List Char) :
    Text.filledLines (Text.trimWhile (· == '\n') cs) = Text.filledLines cs := by
  have hfront : Text.filledLines (cs.dropWhile (· == '\n'))
      = Text.filledLines cs := by
    induction cs with
    | nil => rfl
    | cons c cs ih =>
        by_cases hc : c = '\n'
        · rw [hc, Text.filledLines_break, ← ih]
          rfl
        · rw [List.dropWhile_cons_of_neg (by simpa using hc)]
  obtain ⟨tail, hsplit, htail, -⟩ :=
    Text.dropRightWhile_split (· == '\n') (cs.dropWhile (· == '\n'))
  rw [← hfront, Text.trimWhile]
  cases tail with
  | nil =>
      rw [List.append_nil] at hsplit
      rw [← hsplit]
  | cons c tail =>
      obtain ⟨hc, htail⟩ := List.forall_mem_cons.1 htail
      rw [beq_iff_eq.1 hc] at hsplit
      rw [hsplit, Text.filledLines_append, Text.filledLines_breaks htail,
        List.append_nil, ← hsplit]

/-- Joining lines and cutting them again keeps those with characters. -/
theorem Text.filledLines_joinLines {lines : List (List Char)}
    (h : ∀ line ∈ lines, '\n' ∉ line) :
    Text.filledLines (Text.joinLines lines) = lines.filter (!·.isEmpty) := by
  cases lines with
  | nil => rfl
  | cons first lines => rw [filledLines, Text.splitLines_joinLines h]

/-- The last character of a text, if it is no line feed, is the last one of a
line. -/
theorem Text.getLast?_filledLines {cs : List Char} {c : Char} (hc : c ≠ '\n')
    (h : c ∈ cs.getLast?) : ∃ line ∈ Text.filledLines cs,
      c ∈ line.getLast? := by
  suffices hline : ∃ line ∈ Text.splitLines cs, c ∈ line.getLast? by
    obtain ⟨line, hline, hlast⟩ := hline
    refine ⟨line, List.mem_filter.2 ⟨hline, ?_⟩, hlast⟩
    cases line with
    | nil => cases hlast
    | cons d line => rfl
  induction cs with
  | nil => cases h
  | cons d cs ih =>
      by_cases hd : d = '\n'
      · rw [hd, Text.splitLines_break]
        cases cs with
        | nil =>
            rw [hd] at h
            exact absurd (Option.some.inj h).symm hc
        | cons e cs =>
            rw [List.getLast?_cons_cons] at h
            obtain ⟨line, hline, hlast⟩ := ih h
            exact ⟨line, List.mem_cons_of_mem _ hline, hlast⟩
      · obtain ⟨first, lines, hcs, hcons⟩ := Text.splitLines_cons hd cs
        rw [hcons]
        cases cs with
        | nil =>
            cases hcs
            exact ⟨[d], List.mem_cons_self, h⟩
        | cons e cs =>
            rw [List.getLast?_cons_cons] at h
            obtain ⟨line, hline, hlast⟩ := ih h
            rw [hcs] at hline
            rcases List.mem_cons.1 hline with rfl | hline
            · refine ⟨d :: line, List.mem_cons_self, ?_⟩
              cases line with
              | nil => cases hlast
              | cons e line =>
                  rw [List.getLast?_cons_cons]
                  exact hlast
            · exact ⟨line, List.mem_cons_of_mem _ hline, hlast⟩

end Marginalia
