/-
Spans tile their text.

The spans of a text follow each other without a gap, none of them is empty,
and their characters in order are the text. `Tiles` is the local half of
this, about where each span starts; every statement about the order of
comments and tokens comes from it.
-/
import Marginalia.Span.OfText

namespace Marginalia

/-- Spans that follow each other from the offset on, none of them empty. -/
def Tiles : Nat → List Span → Prop
  | _, [] => True
  | offset, span :: spans =>
    span.start = offset ∧ span.chars ≠ [] ∧ Tiles span.stop spans

/-- The offset just past the last of the spans that start at the offset. -/
def tilesEnd (offset : Nat) (spans : List Span) : Nat :=
  offset + (spans.flatMap (·.chars)).length

theorem tilesEnd_cons (offset : Nat) (span : Span) (spans : List Span) :
    tilesEnd offset (span :: spans)
      = tilesEnd (offset + span.chars.length) spans := by
  simp only [tilesEnd, List.flatMap_cons, List.length_append]
  omega

/-- Spans that go on where others end. -/
theorem Tiles.append {offset : Nat} {front back : List Span}
    (hfront : Tiles offset front) (hback : Tiles (tilesEnd offset front) back) :
    Tiles offset (front ++ back) := by
  induction front generalizing offset with
  | nil => exact hback
  | cons span front ih =>
      obtain ⟨hstart, hne, htail⟩ := hfront
      refine ⟨hstart, hne, ih htail ?_⟩
      rw [tilesEnd_cons] at hback
      rw [Span.stop, hstart]
      exact hback

theorem Tiles.of_append {offset : Nat} {front back : List Span}
    (h : Tiles offset (front ++ back)) :
    Tiles offset front ∧ Tiles (tilesEnd offset front) back := by
  induction front generalizing offset with
  | nil => exact ⟨trivial, h⟩
  | cons span front ih =>
      obtain ⟨hstart, hne, htail⟩ := h
      obtain ⟨hfront, hback⟩ := ih htail
      refine ⟨⟨hstart, hne, hfront⟩, ?_⟩
      rw [tilesEnd_cons]
      rw [Span.stop, hstart] at hback
      exact hback

/-- A span lies between the ends of its tiling. -/
theorem Tiles.mem {offset : Nat} {spans : List Span} (h : Tiles offset spans)
    {span : Span} (hmem : span ∈ spans) :
    offset ≤ span.start ∧ span.start < span.stop
      ∧ span.stop ≤ tilesEnd offset spans := by
  induction spans generalizing offset with
  | nil => cases hmem
  | cons first spans ih =>
      obtain ⟨hstart, hne, htail⟩ := h
      have hpos : 0 < first.chars.length := List.length_pos_iff.2 hne
      rw [tilesEnd_cons]
      rcases List.mem_cons.1 hmem with rfl | hmem
      · simp only [Span.stop, tilesEnd]
        omega
      · obtain ⟨hlow, hlt, hhigh⟩ := ih htail hmem
        have hstop : first.stop = offset + first.chars.length := by
          rw [Span.stop, hstart]
        rw [hstop] at hlow hhigh
        exact ⟨by omega, hlt, hhigh⟩

/-- What a text goes on with at the start of one of its spans. -/
theorem Tiles.drop_start {offset : Nat} {spans : List Span}
    (h : Tiles offset spans) {span : Span} (hmem : span ∈ spans) :
    (spans.flatMap (·.chars)).drop (span.start - offset)
      = span.chars ++ (spans.flatMap (·.chars)).drop (span.stop - offset) := by
  induction spans generalizing offset with
  | nil => cases hmem
  | cons first spans ih =>
      obtain ⟨hstart, hne, htail⟩ := h
      rw [List.flatMap_cons]
      rcases List.mem_cons.1 hmem with rfl | hmem
      · rw [Span.stop, hstart, Nat.sub_self, List.drop_zero,
          Nat.add_sub_cancel_left, List.drop_left]
      · obtain ⟨hlow, hlt, -⟩ := htail.mem hmem
        have hsplit : ∀ place, first.stop ≤ place →
            place - offset = first.chars.length + (place - first.stop) := by
          intro place hplace
          rw [Span.stop, hstart] at hplace ⊢
          omega
        rw [hsplit span.start hlow, hsplit span.stop (by omega),
          ← List.drop_drop, ← List.drop_drop, List.drop_left]
        exact ih htail hmem

/-- Spans end no earlier than they start. -/
theorem tilesEnd_le {offset : Nat} {spans : List Span} :
    offset ≤ tilesEnd offset spans := by
  unfold tilesEnd
  omega

-- ========================================================= the spans

namespace Rules

variable {rules : Rules} {literals : List LiteralRule} {before : Option Char}
    {c : Char}
  {cs : List Char}

theorem spansFrom_nil (start : Nat) (gathered : List Char)
    (before : Option Char) :
    rules.spansFrom literals start gathered before []
      = codeSpan start gathered.reverse := by
  rw [spansFrom]

/-- Where no comment or literal starts, the character joins the code. -/
theorem spansFrom_code (h : rules.lexemeAt? literals before (c :: cs) = none)
    (start : Nat) (gathered : List Char) :
    rules.spansFrom literals start gathered before (c :: cs)
      = rules.spansFrom literals start (c :: gathered) (some c) cs := by
  rw [spansFrom, h]

/-- A comment or literal ends the code in front of it, and is followed by what
is read behind it. -/
theorem spansFrom_lexeme {lexeme : Lexeme}
    (h : rules.lexemeAt? literals before (c :: cs) = some lexeme) (start : Nat)
    (gathered : List Char) :
    rules.spansFrom literals start gathered before (c :: cs)
      = codeSpan start gathered.reverse
        ++ ⟨lexeme.kind, start + gathered.length, (c :: cs).take lexeme.length,
          lexeme.unclosed⟩
        :: rules.spansFrom literals
            (start + gathered.length + ((c :: cs).take lexeme.length).length) []
            ((c :: cs).take lexeme.length).getLast?
              ((c :: cs).drop lexeme.length) := by
  rw [spansFrom, h]

end Rules

/-- The span of gathered code, if there is any, is made of just that code. -/
theorem codeSpan_tiles (start : Nat) (chars : List Char) :
    Tiles start (codeSpan start chars)
      ∧ (codeSpan start chars).flatMap (·.chars) = chars := by
  unfold codeSpan
  cases chars with
  | nil => exact ⟨trivial, rfl⟩
  | cons c cs =>
      exact ⟨⟨rfl, List.cons_ne_nil c cs, trivial⟩, List.append_nil _⟩

/-- The spans of the rest of a text tile what was gathered and the rest. -/
theorem spansFrom_tiles (rules : Rules) (literals : List LiteralRule)
    (start : Nat) (gathered : List Char) (before : Option Char)
    (cs : List Char) :
    Tiles start (rules.spansFrom literals start gathered before cs)
      ∧ (rules.spansFrom literals start gathered before cs).flatMap (·.chars)
        = gathered.reverse ++ cs := by
  fun_induction Rules.spansFrom rules literals start gathered before cs with
  | case1 start gathered before =>
      rw [List.append_nil]
      exact codeSpan_tiles start gathered.reverse
  | case2 start gathered before c cs lexeme hlexeme chars offset ih =>
      obtain ⟨htiles, hchars⟩ := ih
      obtain ⟨hcode, hcodeChars⟩ := codeSpan_tiles start gathered.reverse
      have hend : tilesEnd start (codeSpan start gathered.reverse)
          = offset := by
        rw [tilesEnd, hcodeChars, List.length_reverse]
      refine ⟨hcode.append ?_, ?_⟩
      · rw [hend]
        refine ⟨rfl, ?_, htiles⟩
        have hpos := lexeme.length_pos
        intro hnil
        have hlen := congrArg List.length hnil
        simp only [chars, List.length_take, List.length_cons,
          List.length_nil] at hlen
        omega
      · rw [List.flatMap_append, hcodeChars, List.flatMap_cons, hchars,
          List.reverse_nil, List.nil_append]
        simp only [chars, List.take_append_drop]
  | case3 start gathered before c cs hlexeme ih =>
      rw [List.reverse_cons, List.append_assoc] at ih
      exact ih

/-- The spans of a text tile it. -/
theorem spans_tiles (rules : Rules) (text : List Char) :
    Tiles 0 (rules.spans text) :=
  (spansFrom_tiles rules rules.orderedLiterals 0 [] none text).1

/-- The characters of a text's spans are the text. -/
theorem spans_chars (rules : Rules) (text : List Char) :
    (rules.spans text).flatMap (·.chars) = text :=
  (spansFrom_tiles rules rules.orderedLiterals 0 [] none text).2

/-- A span's characters are those at its place in the text. -/
theorem spans_drop {rules : Rules} {text : List Char} {span : Span}
    (hspan : span ∈ rules.spans text) :
    text.drop span.start = span.chars ++ text.drop span.stop := by
  have hdrop := (spans_tiles rules text).drop_start hspan
  rw [spans_chars, Nat.sub_zero, Nat.sub_zero] at hdrop
  exact hdrop

/-- The spans end where the text does. -/
theorem spans_end (rules : Rules) (text : List Char) :
    tilesEnd 0 (rules.spans text) = text.length := by
  rw [tilesEnd, spans_chars, Nat.zero_add]

end Marginalia
