/-
The normal form of prose.

Prose has no line feed at either end and never three in a row, no line ends in
white space, and no indentation is common to its lines. Each property is
brought about by one step and has to outlast the others. Those of lines
concern lines that hold something only, and the steps behind the removal of the
margin take out empty lines and nothing else (`filledLines_collapseBreaks`).
The margin is the longest indentation that all lines start with
(`prefix_margin_iff`), so there is none behind it.

A text in normal form has nothing to lose: the texts that are their own prose
are those in normal form (`prose_in_normal_form`).
-/
import Marginalia.Comment.Prose
import Marginalia.Proofs.Text.Lines
import Mathlib.Data.List.TakeWhile

namespace Marginalia.Prose

-- =================================================== the normal form

/-- Lines without trailing white space and without a common indentation. -/
structure Settled (lines : List (List Char)) : Prop where
  trimmed : ∀ line ∈ lines, ∀ c ∈ line.getLast?, Text.isBlank c = false
  flush : ∀ indent : List Char, indent.all isIndent = true →
    (∀ line ∈ lines, indent <+: line) → lines = [] ∨ indent = []

/-- A text in normal form. -/
structure Normal (text : List Char) : Prop where
  starts : text.head? ≠ some '\n'
  ends : text.getLast? ≠ some '\n'
  breaks : ¬ ['\n', '\n', '\n'] <:+: text
  lines : Settled (Text.filledLines text)

theorem normal_nil : Normal [] where
  starts := nofun
  ends := nofun
  breaks := by decide
  lines := ⟨nofun, fun _ _ _ => .inl rfl⟩

-- ======================================================= indentation

theorem isBlank_of_isIndent {c : Char} (h : isIndent c = true) :
    Text.isBlank c = true := by
  rw [isIndent, Bool.or_eq_true, beq_iff_eq, beq_iff_eq] at h
  rcases h with rfl | rfl <;> decide

/-- What two texts start with is what their common start starts with. -/
theorem prefix_commonStart_iff {p a b : List Char} :
    p <+: commonStart a b ↔ p <+: a ∧ p <+: b := by
  induction p generalizing a b with
  | nil => simp
  | cons c p ih =>
      cases a with
      | nil => simp [commonStart]
      | cons d a =>
          cases b with
          | nil => simp [commonStart]
          | cons e b =>
              rw [commonStart, List.cons_prefix_cons, List.cons_prefix_cons]
              split
              · next heq =>
                rw [List.cons_prefix_cons, ih, beq_iff_eq.1 heq]
                tauto
              · next hne =>
                rw [beq_iff_eq] at hne
                simp only [List.prefix_nil, List.cons_ne_nil, false_iff]
                rintro ⟨⟨rfl, -⟩, rfl, -⟩
                exact hne rfl

/-- The common start of lines is the longest: it starts with whatever all of
them start with. -/
theorem prefix_foldl_commonStart_iff {p first : List Char}
    {rest : List (List Char)} :
    p <+: rest.foldl commonStart first ↔ ∀ line ∈ first :: rest,
      p <+: line := by
  induction rest generalizing first with
  | nil => simp
  | cons second rest ih =>
      rw [List.foldl_cons, ih, List.forall_mem_cons, prefix_commonStart_iff]
      simp [and_assoc]

theorem prefix_takeWhile_iff {q : Char → Bool} {p line : List Char} :
    p <+: line.takeWhile q ↔ p.all q = true ∧ p <+: line := by
  constructor
  · intro h
    refine ⟨List.all_eq_true.2 fun c hc => ?_,
      h.trans (List.takeWhile_prefix q)⟩
    exact List.mem_takeWhile_imp (h.subset hc)
  · intro ⟨hall, rest, hline⟩
    rw [← hline, List.takeWhile_append_of_pos (List.all_eq_true.1 hall)]
    exact List.prefix_append p _

/-- The margin is the longest indentation that all lines start with, except for
those that hold nothing else. -/
theorem prefix_margin_iff {lines : List (List Char)} {p : List Char}
    (hsome : lines.filter (fun line => !line.all isIndent) ≠ []) :
    p <+: margin lines ↔ p.all isIndent = true
      ∧ ∀ line ∈ lines.filter (fun line => !line.all isIndent), p <+: line := by
  unfold margin
  generalize lines.filter (fun line => !line.all isIndent) = filled at hsome
  cases filled with
  | nil => exact absurd rfl hsome
  | cons first rest =>
      rw [List.map_cons]
      simp only [prefix_foldl_commonStart_iff, ← List.map_cons,
        List.forall_mem_map, prefix_takeWhile_iff]
      constructor
      · intro h
        exact ⟨(h first List.mem_cons_self).1,
          fun line hline => (h line hline).2⟩
      · intro ⟨hindent, hstarts⟩ line hline
        exact ⟨hindent, hstarts line hline⟩

/-- Every line that is not blank starts with the margin. -/
theorem margin_common {lines : List (List Char)} :
    ∀ line ∈ lines.filter (fun line => !line.all isIndent),
      margin lines <+: line := by
  intro line hline
  exact ((prefix_margin_iff (List.ne_nil_of_mem hline)).1
    (List.prefix_refl _)).2 line hline

/-- The margin is indentation. -/
theorem margin_all (lines : List (List Char)) :
    (margin lines).all isIndent = true := by
  by_cases hsome : lines.filter (fun line => !line.all isIndent) = []
  · simp [margin, hsome]
  · exact ((prefix_margin_iff hsome).1 (List.prefix_refl _)).1

/-- Behind the margin a line goes on, if it holds more than indentation. -/
theorem drop_margin_ne_nil {lines : List (List Char)} {line : List Char}
    (hline : line ∈ lines.filter (fun line => !line.all isIndent)) :
    line.drop (margin lines).length ≠ [] := by
  intro hnil
  have hwhole : margin lines = line :=
    (margin_common line hline).eq_of_length_le (List.drop_eq_nil_iff.1 hnil)
  have hindent := margin_all lines
  rw [hwhole] at hindent
  simp [hindent] at hline

/-- Taking the margin off, a line is left empty just if it was blank. -/
theorem filter_removeMargin {margin : List Char} {lines : List (List Char)}
    (h : ∀ line ∈ lines.filter (fun line => !line.all isIndent),
      line.drop margin.length ≠ []) :
    (lines.map (removeMargin margin)).filter (!·.isEmpty)
      = (lines.filter fun line => !line.all isIndent).map
        (·.drop margin.length) := by
  induction lines with
  | nil => rfl
  | cons line lines ih =>
      rw [List.map_cons, removeMargin]
      by_cases hline : line.all isIndent = true
      · have hskip : (line :: lines).filter (fun line => !line.all isIndent)
            = lines.filter (fun line => !line.all isIndent) :=
          List.filter_cons_of_neg (by rw [hline]; decide)
        rw [hskip] at h ⊢
        rw [if_pos hline]
        exact ih h
      · have hkeep : (line :: lines).filter (fun line => !line.all isIndent)
            = line :: lines.filter (fun line => !line.all isIndent) :=
          List.filter_cons_of_pos (by rw [Bool.eq_false_iff.2 hline]; rfl)
        rw [hkeep] at h ⊢
        obtain ⟨hne, hrest⟩ := List.forall_mem_cons.1 h
        rw [if_neg hline, List.filter_cons_of_pos (by simpa using hne),
          ih hrest, List.map_cons]

/-- The lines that hold something lose the margin and nothing else. -/
theorem filter_dedent (lines : List (List Char)) :
    (dedent lines).filter (!·.isEmpty)
      = ((lines.map Text.trimRight).filter fun line => !line.all isIndent).map
          (·.drop (margin (lines.map Text.trimRight)).length) :=
  filter_removeMargin fun _ hline => drop_margin_ne_nil hline

/-- Lines without their margin have neither white space at the end nor another
margin. -/
theorem settled_dedent (lines : List (List Char)) :
    Settled ((dedent lines).filter (!·.isEmpty)) := by
  rw [filter_dedent]
  constructor
  · intro line hline c hc
    obtain ⟨whole, hwhole, rfl⟩ := List.mem_map.1 hline
    obtain ⟨written, -, rfl⟩ := List.mem_map.1 (List.mem_filter.1 hwhole).1
    rw [List.getLast?_drop] at hc
    split at hc
    · cases hc
    · exact Text.getLast?_dropRightWhile c hc
  · intro indent hindent hstarts
    by_cases hsome : (lines.map Text.trimRight).filter
      (fun line => !line.all isIndent) = []
    · rw [hsome]
      exact .inl rfl
    · -- With the margin in front of it, a common indentation is part of the
      -- margin.
      have hlonger : margin (lines.map Text.trimRight) ++ indent
          <+: margin (lines.map Text.trimRight) := by
        refine (prefix_margin_iff hsome).2 ⟨?_, fun line hline => ?_⟩
        · rw [List.all_append, margin_all, hindent]
          rfl
        · obtain ⟨rest, rfl⟩ := margin_common line hline
          have hrest := hstarts _ (List.mem_map_of_mem hline)
          rw [List.drop_left] at hrest
          exact (List.prefix_append_right_inj _).2 hrest
      have hlength := hlonger.length_le
      rw [List.length_append] at hlength
      exact .inr (List.length_eq_zero_iff.1 (by omega))

/-- Taking off a margin puts no line feed in. -/
theorem not_mem_dedent {lines : List (List Char)}
    (h : ∀ line ∈ lines, '\n' ∉ line) :
    ∀ line ∈ dedent lines, '\n' ∉ line := by
  intro line hline hbreak
  obtain ⟨whole, hwhole, rfl⟩ := List.mem_map.1 hline
  obtain ⟨written, hwritten, rfl⟩ := List.mem_map.1 hwhole
  rw [removeMargin] at hbreak
  split at hbreak
  · cases hbreak
  · exact h written hwritten
      ((Text.dropRightWhile_isPrefix _ written).subset
        (List.mem_of_mem_drop hbreak))

/-- Settled lines have nothing to lose. -/
theorem dedent_eq_self {lines : List (List Char)}
    (h : Settled (lines.filter (!·.isEmpty))) :
    dedent lines = lines := by
  have hlast : ∀ line ∈ lines, ∀ c ∈ line.getLast?, Text.isBlank c = false := by
    intro line hline c hc
    cases line with
    | nil => cases hc
    | cons d line => exact h.trimmed _ (List.mem_filter.2 ⟨hline, rfl⟩) c hc
  have htrimmed : lines.map Text.trimRight = lines := by
    refine (List.map_congr_left fun line hline => ?_).trans (List.map_id lines)
    exact Text.dropRightWhile_eq_self (hlast line hline)
  -- The last character of a line that is not empty is no indentation.
  have hempty : ∀ line ∈ lines, line.all isIndent = true → line = [] := by
    intro line hline hall
    cases hc : line.getLast? with
    | none => exact List.getLast?_eq_none_iff.1 hc
    | some c =>
        have hindent := List.all_eq_true.1 hall c (List.mem_of_mem_getLast? hc)
        have hblank := hlast line hline c hc
        rw [isBlank_of_isIndent hindent] at hblank
        cases hblank
  have hfilled : lines.filter (fun line => !line.all isIndent)
      = lines.filter (!·.isEmpty) := by
    refine List.filter_congr fun line hline => ?_
    cases line with
    | nil => rfl
    | cons c line =>
        have hnot : ¬ (c :: line).all isIndent = true :=
          fun hall => nomatch hempty _ hline hall
        rw [Bool.eq_false_iff.2 hnot]
        rfl
  have hmargin : margin lines = [] := by
    rcases h.flush _ (margin_all lines) (hfilled ▸ margin_common)
      with hnone | hnil
    · rw [← hfilled] at hnone
      simp [margin, hnone]
    · exact hnil
  rw [dedent, htrimmed, hmargin]
  refine (List.map_congr_left fun line hline => ?_).trans (List.map_id lines)
  rw [removeMargin]
  split
  · next hall => exact (hempty line hline hall).symm
  · rfl

-- ======================================================== line feeds

/-- Line feeds that are left out part no lines that hold something, whatever
line has begun in front of them. -/
theorem filledLines_collapseBreaks (cs : List Char) :
    ∀ (breaks : Nat) (line : List Char), line = [] ∨ breaks = 0 →
      Text.filledLines (line ++ collapseBreaks breaks cs)
        = Text.filledLines (line ++ cs) := by
  induction cs with
  | nil =>
      intro breaks line _
      rfl
  | cons c cs ih =>
      intro breaks line h
      rw [collapseBreaks]
      split
      · next hc =>
        rw [beq_iff_eq.1 hc, Text.filledLines_append]
        split
        · have hrest := ih (breaks + 1) [] (.inl rfl)
          rw [List.nil_append, List.nil_append] at hrest
          rw [Text.filledLines_append, hrest]
        · next hmany =>
          obtain rfl := h.resolve_right (by omega)
          exact ih breaks [] (.inl rfl)
      · rw [List.append_cons, List.append_cons line c cs]
        exact ih 0 (line ++ [c]) (.inr rfl)

/-- Three line feeds behind at most two and another character lie behind that
character. -/
theorem infix_of_infix_breaks {c : Char} (hc : c ≠ '\n') {breaks : Nat}
    (h : breaks ≤ 2) {cs : List Char}
    (hrun : ['\n', '\n', '\n'] <:+: List.replicate breaks '\n' ++ c :: cs) :
    ['\n', '\n', '\n'] <:+: cs := by
  match breaks, h with
  | 0, _ | 1, _ | 2, _ =>
      simpa [List.replicate, List.infix_cons_iff, List.cons_prefix_cons,
        Ne.symm hc] using hrun

/-- No three line feeds are left, those in front of the text counted in. -/
theorem collapseBreaks_breaks (cs : List Char) :
    ∀ {breaks : Nat}, breaks ≤ 2 →
      ¬ ['\n', '\n', '\n'] <:+: List.replicate breaks '\n'
        ++ collapseBreaks breaks cs := by
  induction cs with
  | nil =>
      intro breaks h hrun
      have hlength := hrun.length_le
      simp only [collapseBreaks, List.append_nil, List.length_replicate,
        List.length_cons, List.length_nil] at hlength
      omega
  | cons c cs ih =>
      intro breaks h
      rw [collapseBreaks]
      split
      · next hc =>
        split
        · next hfew =>
          rw [beq_iff_eq.1 hc, List.append_cons, ← List.replicate_succ']
          exact ih (by omega)
        · exact ih h
      · next hc =>
        intro hrun
        exact ih (Nat.zero_le 2)
          (infix_of_infix_breaks (by simpa using hc) h hrun)

/-- Where no three line feeds stand together, none is left out. -/
theorem collapseBreaks_eq_self (cs : List Char) :
    ∀ {breaks : Nat}, ¬ ['\n', '\n', '\n'] <:+: List.replicate breaks
      '\n' ++ cs →
      collapseBreaks breaks cs = cs := by
  induction cs with
  | nil =>
      intro breaks _
      rfl
  | cons c cs ih =>
      intro breaks h
      rw [collapseBreaks]
      split
      · next hc =>
        rw [beq_iff_eq.1 hc, List.append_cons, ← List.replicate_succ'] at h
        split
        · rw [ih h]
        · next hmany =>
          refine absurd
            (List.IsInfix.trans ?_ (List.prefix_append _ cs).isInfix) h
          exact (List.prefix_replicate_iff.2
            ⟨by simp; omega, by decide⟩).isInfix
      · rw [ih]
        intro hrun
        exact h
          (hrun.trans
            ((List.suffix_cons c cs).trans (List.suffix_append _ _)).isInfix)

-- ========================================================= finishing

/-- Leaving out line feeds keeps the lines with characters. -/
theorem filledLines_trimmed (body : List Char) :
    Text.filledLines (Text.trimWhile (· == '\n') (collapseBreaks 0 body))
      = Text.filledLines body := by
  rw [Text.filledLines_trimWhile]
  exact filledLines_collapseBreaks body 0 [] (.inl rfl)

/-- A text that does not end in a line feed ends like one of its lines. -/
theorem Settled.getLast? {text : List Char}
    (h : Settled (Text.filledLines text)) (hends : text.getLast? ≠ some '\n') :
    ∀ c ∈ text.getLast?, Text.isBlank c = false := by
  intro c hc
  have hne : c ≠ '\n' := by
    rintro rfl
    exact hends hc
  obtain ⟨line, hline, hlast⟩ := Text.getLast?_filledLines hne hc
  exact h.trimmed line hline c hlast

/-- A body whose lines are settled is laid out in normal form. -/
theorem normal_finish {body : List Char} (h : Settled (Text.filledLines body)) :
    Normal (finish body) := by
  have hsettled := h
  rw [← filledLines_trimmed body] at hsettled
  have hends : (Text.trimWhile (· == '\n') (collapseBreaks 0 body)).getLast?
      ≠ some '\n' := by
    intro hlast
    exact absurd (Text.getLast?_dropRightWhile _ hlast) (by decide)
  have hfinish : finish body
      = Text.trimWhile (· == '\n') (collapseBreaks 0 body) :=
    Text.dropRightWhile_eq_self (hsettled.getLast? hends)
  rw [hfinish]
  constructor
  · intro hhead
    exact absurd (Text.head?_trimWhile _ hhead) (by decide)
  · exact hends
  · intro hrun
    exact collapseBreaks_breaks body (Nat.zero_le 2)
      (hrun.trans (Text.trimWhile_isInfix _ _))
  · exact hsettled

/-- Laying out a text in normal form changes nothing. -/
theorem Normal.finish_eq_self {text : List Char} (h : Normal text) :
    finish text = text := by
  have hbreaks : collapseBreaks 0 text = text :=
    collapseBreaks_eq_self text h.breaks
  have htrim : Text.trimWhile (· == '\n') text = text := by
    apply Text.trimWhile_eq_self
    · exact fun c hc => beq_false_of_ne fun hbreak => h.starts (hbreak ▸ hc)
    · exact fun c hc => beq_false_of_ne fun hbreak => h.ends (hbreak ▸ hc)
  rw [finish, hbreaks, htrim]
  exact Text.dropRightWhile_eq_self (h.lines.getLast? h.ends)

-- ============================================================= prose

/-- Taking a star off leaves the end of the line. -/
theorem stripStar_suffix (line : List Char) : stripStar line <:+ line := by
  have htrim : Text.trimLeft line <:+ line := List.dropWhile_suffix Text.isBlank
  rw [stripStar]
  split
  · exact List.suffix_refl line
  · next c rest _ hstar =>
    rw [hstar] at htrim
    split
    · exact ((List.suffix_cons c rest).trans (List.suffix_cons '*' _)).trans
        htrim
    · exact (List.suffix_cons '*' _).trans htrim
  · exact List.nil_suffix
  · exact List.suffix_refl line

/-- A line that starts with something visible leaves no common indentation. -/
theorem Settled.cons {title : List Char} {lines : List (List Char)}
    (h : Settled lines) (hhead : ∀ c ∈ title.head?, Text.isBlank c = false)
    (hlast : ∀ c ∈ title.getLast?, Text.isBlank c = false) :
    Settled (title :: lines) where
  trimmed := List.forall_mem_cons.2 ⟨hlast, h.trimmed⟩
  flush := by
    intro indent hindent hstarts
    cases indent with
    | nil => exact .inr rfl
    | cons c indent =>
        obtain ⟨rest, htitle⟩ := hstarts title List.mem_cons_self
        have hvisible : Text.isBlank c = false :=
          hhead c (by rw [← htitle]; rfl)
        rw [isBlank_of_isIndent
          (List.all_eq_true.1 hindent c List.mem_cons_self)] at hvisible
        cases hvisible

/-- The lines of a block comment have no line feeds in them and are settled. -/
theorem blockLines_settled (text : List Char) :
    (∀ line ∈ blockLines text, '\n' ∉ line)
      ∧ Settled ((blockLines text).filter (!·.isEmpty)) := by
  have hbreaks : ∀ line ∈ Text.splitLines text, '\n' ∉ line :=
    Text.not_mem_splitLines
  rw [blockLines]
  split
  · exact ⟨nofun, nofun, fun _ _ _ => .inl rfl⟩
  · next first rest hlines =>
    rw [hlines] at hbreaks
    obtain ⟨hfirst, hrest⟩ := List.forall_mem_cons.1 hbreaks
    have hbody : ∀ line ∈ dedent (rest.map stripStar), '\n' ∉ line := by
      refine not_mem_dedent fun line hline => ?_
      obtain ⟨written, hwritten, rfl⟩ := List.mem_map.1 hline
      exact fun hbreak =>
        hrest written hwritten ((stripStar_suffix written).subset hbreak)
    have hsettled := settled_dedent (rest.map stripStar)
    by_cases htitle : (Text.trim first).isEmpty = true
    · simp only [if_pos htitle, List.nil_append]
      exact ⟨hbody, hsettled⟩
    · have hinside : '\n' ∉ Text.trim first :=
        fun hbreak => hfirst
          ((Text.trimWhile_isInfix Text.isBlank first).subset hbreak)
      simp only [if_neg htitle, List.singleton_append]
      refine ⟨List.forall_mem_cons.2 ⟨hinside, hbody⟩, ?_⟩
      rw [List.filter_cons_of_pos (by simpa using htitle)]
      exact hsettled.cons Text.head?_trimWhile Text.getLast?_dropRightWhile

/-- The text of every comment is in normal form. -/
theorem normal_ofText (kind : CommentKind) (text : List Char) :
    Normal (ofText kind text) := by
  cases kind with
  | line =>
      rw [ofText]
      split
      · exact normal_nil
      · apply normal_finish
        rw [Text.filledLines_joinLines (not_mem_dedent Text.not_mem_splitLines)]
        exact settled_dedent (Text.splitLines text)
  | block =>
      rw [ofText]
      split
      · exact normal_nil
      · obtain ⟨hbreaks, hsettled⟩ := blockLines_settled text
        apply normal_finish
        rw [Text.filledLines_joinLines hbreaks]
        exact hsettled

/-- A text in normal form is the text of a line comment as it stands. -/
theorem Normal.ofText_line {text : List Char} (h : Normal text) :
    ofText .line text = text := by
  cases hlast : text.getLast? with
  | none =>
      rw [List.getLast?_eq_none_iff.1 hlast]
      rfl
  | some c =>
      have hvisible : ¬ text.all Text.isBlank = true := by
        intro hall
        have hblank :=
          List.all_eq_true.1 hall c (List.mem_of_mem_getLast? hlast)
        rw [h.lines.getLast? h.ends c hlast] at hblank
        cases hblank
      rw [ofText, if_neg hvisible, dedent_eq_self h.lines,
        Text.joinLines_splitLines, h.finish_eq_self]

/-- The prose of a comment is in normal form. Taken as a line comment it is its
own prose, and so is every text in normal form and no other. -/
theorem prose_in_normal_form (kind : CommentKind) (text : List Char) :
    Normal (ofText kind text)
      ∧ ofText .line (ofText kind text) = ofText kind text
      ∧ (ofText .line text = text ↔ Normal text) := by
  have hnormal := normal_ofText kind text
  refine ⟨hnormal, hnormal.ofText_line, fun hself => ?_, Normal.ofText_line⟩
  rw [← hself]
  exact normal_ofText .line text

end Marginalia.Prose
