/-
Every span is what the rules make of its place.

# What is read

`ReadsOff` says this of a single span and the whole text, for any table: at no
place of a code span is anything read, and any other span is what is read at
its start. The text is read from front to back with the code gathered so far
and the last character as its only memory; the induction (`spansFrom_read`)
carries that the one holds no start and the other is the character in front
of the place reached.

# What it is

`Makes` says it in the words of the grammars: at no place of a code span can a
comment or literal start, and any other span is what the first alternative at
its start takes. Where delimiters have characters, the one comes from the
other (`spans_made`).
-/
import Marginalia.Proofs.Span.Alternative

namespace Marginalia

/-- The character in front of an offset. -/
def Text.charBefore (text : List Char) (offset : Nat) : Option Char :=
  (text.take offset).getLast?

/-- Behind characters that were just read stands the last of them. -/
theorem Text.charBefore_append {text chars rest : List Char} {offset : Nat}
    (h : text.drop offset = chars ++ rest) (hne : chars ≠ []) :
    Text.charBefore text (offset + chars.length) = chars.getLast? := by
  rw [charBefore, List.take_add, h, List.take_left,
    List.getLast?_append_of_ne_nil _ hne]

-- ====================================================== what is read

theorem mem_codeSpan {start : Nat} {chars : List Char} {span : Span}
    (h : span ∈ codeSpan start chars) :
    span = { kind := .code, start, chars } := by
  unfold codeSpan at h
  split at h
  · cases h
  · exact List.mem_singleton.1 h

/-- What is read at an offset of the text. -/
def Rules.readAt? (rules : Rules) (text : List Char) (offset : Nat) :
    Option Lexeme :=
  rules.lexemeAt? rules.orderedLiterals (Text.charBefore text offset)
    (text.drop offset)

/-- The span is what is read at its place in the text. -/
inductive Rules.ReadsOff (rules : Rules) (text : List Char) (span : Span) :
    Prop where
  | code (kind : span.kind = .code) (closed : span.unclosed = none)
    (nothing : ∀ offset, span.start ≤ offset → offset < span.stop →
      rules.readAt? text offset = none)
  | lexeme (lexeme : Lexeme)
    (read : rules.readAt? text span.start = some lexeme)
    (kind : span.kind = lexeme.kind)
    (unclosed : span.unclosed = lexeme.unclosed)
    (chars : span.chars = (text.drop span.start).take lexeme.length)

/-- A run of code in which nothing is read anywhere is such a span. -/
theorem codeSpan_read {rules : Rules} {text : List Char} {start : Nat}
    {chars : List Char}
    (h : ∀ offset, start ≤ offset → offset < start + chars.length →
      rules.readAt? text offset = none) :
    ∀ span ∈ codeSpan start chars, rules.ReadsOff text span := by
  intro span hspan
  rw [mem_codeSpan hspan]
  exact .code rfl rfl h

/-- The step of the scan keeps what the gathered code and the last character
stand for, so every span it gives is read off the whole text. -/
theorem Rules.spansFrom_read (rules : Rules) (text : List Char) (start : Nat)
    (gathered : List Char) (before : Option Char) (cs : List Char) :
    text.drop (start + gathered.length) = cs →
    before = Text.charBefore text (start + gathered.length) →
    (∀ offset, start ≤ offset → offset < start + gathered.length →
      rules.readAt? text offset = none) →
    ∀ span ∈ rules.spansFrom rules.orderedLiterals start gathered before cs,
      rules.ReadsOff text span := by
  fun_induction Rules.spansFrom rules rules.orderedLiterals start gathered
    before cs with
  | case1 start gathered before =>
      intro _ _ hgathered
      exact codeSpan_read (by rw [List.length_reverse]; exact hgathered)
  | case2 start gathered before c cs lexeme hlexeme chars offset ih =>
      intro hcs hbefore hgathered span hspan
      have hhere : text.drop offset
          = chars ++ (c :: cs).drop lexeme.length := by
        rw [List.take_append_drop]
        exact hcs
      have hbehind : text.drop (offset + chars.length)
          = (c :: cs).drop lexeme.length := by
        rw [← List.drop_drop, hhere, List.drop_left]
      have hne : chars ≠ [] := by
        have hpos := lexeme.length_pos
        rw [← List.length_pos_iff, List.length_take, List.length_cons]
        omega
      rcases List.mem_append.1 hspan with hmem | hmem
      · exact codeSpan_read (by rw [List.length_reverse]; exact hgathered)
          span hmem
      · rcases List.mem_cons.1 hmem with rfl | hmem
        · refine .lexeme lexeme ?_ rfl rfl ?_
          · show rules.lexemeAt? rules.orderedLiterals
              (Text.charBefore text offset) (text.drop offset) = some lexeme
            rw [hcs, ← hbefore]
            exact hlexeme
          · show chars = (text.drop offset).take lexeme.length
            rw [hcs]
        · refine ih ?_ ?_ ?_ span hmem
          · rw [List.length_nil, Nat.add_zero, hbehind]
          · rw [List.length_nil, Nat.add_zero, Text.charBefore_append hhere hne]
          · intro q hlow hhigh
            rw [List.length_nil] at hhigh
            omega
  | case3 start gathered before c cs hlexeme ih =>
      intro hcs hbefore hgathered
      have hoffset : start + (c :: gathered).length
          = start + gathered.length + 1 := rfl
      refine ih ?_ ?_ ?_
      · rw [hoffset, ← List.drop_drop, hcs, List.drop_succ_cons, List.drop_zero]
      · have hhere : text.drop (start + gathered.length) = [c] ++ cs := hcs
        exact (Text.charBefore_append hhere (List.cons_ne_nil c [])).symm
      · intro q hlow hhigh
        by_cases hq : q < start + gathered.length
        · exact hgathered q hlow hq
        · -- the character that joins the code
          have hlast : q = start + gathered.length := by omega
          rw [hlast, Rules.readAt?, hcs, ← hbefore]
          exact hlexeme

/-- Every span of a text is what is read at its place. -/
theorem Rules.spans_read (rules : Rules) (text : List Char) :
    ∀ span ∈ rules.spans text, rules.ReadsOff text span := by
  refine rules.spansFrom_read text 0 [] none text rfl rfl ?_
  intro q _ hhigh
  rw [List.length_nil] at hhigh
  omega

-- ======================================================== what it is

/-- The alternative may start at an offset of the text. -/
def Rules.StartsAt (rules : Rules) (text : List Char) (offset : Nat)
    (a : Alternative) : Prop :=
  rules.AppliesAt (Text.charBefore text offset) (text.drop offset) a

/-- The alternative that starts at an offset of the text. -/
def Rules.FirstStart (rules : Rules) (text : List Char) (offset : Nat)
    (a : Alternative) : Prop :=
  rules.FirstAt (Text.charBefore text offset) (text.drop offset) a

/-- The span is what the rules make of its place in the text. -/
inductive Rules.Makes (rules : Rules) (text : List Char) (span : Span) :
    Prop where
  | code (kind : span.kind = .code) (closed : span.unclosed = none)
    (nothing : ∀ offset, span.start ≤ offset → offset < span.stop →
      ∀ a, ¬ rules.StartsAt text offset a)
  | lexeme (a : Alternative) (kind : span.kind = a.kind)
    (first : rules.FirstStart text span.start a)
    (takes : rules.Takes a span.chars (text.drop span.stop) span.unclosed)

/-- Every span of a text is what the first alternative that applies takes
there. -/
theorem Rules.Delimited.spans_made {rules : Rules} (hrules : rules.Delimited)
    (text : List Char) :
    ∀ span ∈ rules.spans text, rules.Makes text span := by
  intro span hspan
  cases rules.spans_read text span hspan with
  | code kind closed nothing =>
      exact .code kind closed fun offset hlow hhigh =>
        hrules.lexemeAt?_none_iff.1 (nothing offset hlow hhigh)
  | lexeme lexeme read kind unclosed chars =>
      obtain ⟨a, hfirst, hkind, hle, htakes⟩ := hrules.lexemeAt?_takes read
      refine .lexeme a (kind.trans hkind) hfirst ?_
      have hstop : span.stop = span.start + lexeme.length := by
        rw [Span.stop, chars, List.length_take_of_le hle]
      rw [chars, unclosed, hstop, ← List.drop_drop]
      exact htakes

end Marginalia
