/-
Spans under plain rules.

Where no delimiter holds white space, a comment or literal starts with a
character that is none (`Rules.Plain.lexemeAt?`). So white space is always code,
and a span that is not code shows its first character.
-/
import Marginalia.Proofs.Dialect.Plain
import Marginalia.Proofs.Span.Tiling

namespace Marginalia

/-- A plain delimiter opens with a character that is no white space. -/
theorem Delimiter.opensAt_head {d : Delimiter} (hd : d.isPlain = true)
    {c : Char} {cs : List Char} (h : d.opensAt (c :: cs) = true) :
    Text.isBlank c = false := by
  obtain ⟨hne, hblank⟩ := Delimiter.isPlain_iff.1 hd
  simp only [opensAt, startsAt, Bool.and_eq_true] at h
  cases hc : d.chars with
  | nil => exact absurd hc hne
  | cons first rest =>
      rw [hc, List.isPrefixOf_cons_cons, Bool.and_eq_true, beq_iff_eq] at h
      rw [← h.2.1]
      exact hblank first (by rw [hc]; exact List.mem_cons_self)

/-- The parts of plain rules that reading a text needs. -/
structure Rules.Plain (rules : Rules) (literals : List LiteralRule) : Prop where
  line : rules.lineComment.isPlain = true
  opener : rules.blockOpener.isPlain = true
  closer : rules.blockCloser.isPlain = true
  literal : ∀ rule ∈ literals, rule.isPlain = true

/-- A plain table is plain with its literals in the order they are tried. -/
theorem Rules.plain_of_isPlain {rules : Rules} (h : rules.isPlain = true) :
    rules.Plain rules.orderedLiterals := by
  simp only [Rules.isPlain, Bool.and_eq_true, List.all_eq_true] at h
  obtain ⟨⟨⟨⟨hline, hopener⟩, hcloser⟩, hliterals⟩, -⟩ := h
  refine ⟨hline, hopener, hcloser, fun rule hrule => hliterals rule ?_⟩
  exact List.mem_mergeSort.1 hrule

/-- The tables list their literals in the order in which these are tried. -/
theorem Dialect.orderedLiterals_eq (dialect : Dialect) :
    dialect.rules.orderedLiterals = dialect.rules.literals := by
  apply List.mergeSort_of_pairwise
  cases dialect <;> decide

/-- The tables list their literals in that order already. -/
theorem Dialect.spans_eq (dialect : Dialect) (text : List Char) :
    dialect.rules.spans text
      = dialect.rules.spansFrom dialect.rules.literals 0 [] none text := by
  rw [Rules.spans, dialect.orderedLiterals_eq]

theorem LiteralRule.isPlain_parts {rule : LiteralRule}
    (h : rule.isPlain = true) :
    rule.opener.isPlain = true ∧ rule.closer.isPlain = true
      ∧ rule.kind.isLiteral = true
      ∧ (rule.escape = none ∨ rule.escape = some ['\\']) := by
  simp only [isPlain, Bool.and_eq_true, Bool.or_eq_true, beq_iff_eq] at h
  exact ⟨h.1.1.1, h.1.1.2, h.1.2, h.2⟩

/-- A lexeme is made of its parts. -/
theorem Lexeme.ofLength?_iff {kind : SpanKind} {length : Nat}
    {unclosed : Option Unclosed} {lexeme : Lexeme} :
    Lexeme.ofLength? kind length unclosed = some lexeme
      ↔ lexeme.kind = kind ∧ lexeme.length = length
        ∧ lexeme.unclosed = unclosed := by
  unfold Lexeme.ofLength?
  constructor
  · intro h
    split at h
    · injection h with h
      rw [← h]
      exact ⟨rfl, rfl, rfl⟩
    · cases h
  · rintro ⟨rfl, rfl, rfl⟩
    rw [dif_pos lexeme.length_pos]

/-- A literal has the kind of its rule, and its opener stands in front. -/
theorem LiteralRule.lexeme?_parts {rule : LiteralRule} {before : Option Char}
    {cs : List Char} {lexeme : Lexeme}
    (h : rule.lexeme? before cs = some lexeme) :
    lexeme.kind = rule.kind ∧ rule.opener.opensAt cs = true := by
  unfold LiteralRule.lexeme? at h
  split at h
  · cases h
  · next hopens =>
    refine ⟨?_, by simpa using hopens⟩
    split at h
    · cases h
    · simp only at h
      split at h
      · cases h
      · split at h
        · cases h
        · exact (Lexeme.ofLength?_iff.1 h).1
      · split at h
        · cases h
        · exact (Lexeme.ofLength?_iff.1 h).1

/-- A comment or literal starts with a character that is no white space, and
is not code. -/
theorem Rules.Plain.lexemeAt? {rules : Rules} {literals : List LiteralRule}
    (hplain : rules.Plain literals) {before : Option Char} {c : Char}
    {cs : List Char} {lexeme : Lexeme}
    (h : rules.lexemeAt? literals before (c :: cs) = some lexeme) :
    Text.isBlank c = false ∧ lexeme.kind ≠ .code := by
  unfold Rules.lexemeAt? at h
  split at h
  · next hopens =>
    refine ⟨Delimiter.opensAt_head hplain.line hopens, ?_⟩
    rw [(Lexeme.ofLength?_iff.1 h).1]
    exact SpanKind.noConfusion
  · split at h
    · next hopens =>
      refine ⟨Delimiter.opensAt_head hplain.opener hopens, ?_⟩
      unfold Rules.blockLexeme? at h
      simp only at h
      split at h
      · rw [(Lexeme.ofLength?_iff.1 h).1]
        exact SpanKind.noConfusion
      · rw [(Lexeme.ofLength?_iff.1 h).1]
        exact SpanKind.noConfusion
    · obtain ⟨rule, hrule, hlexeme⟩ := List.exists_of_findSome?_eq_some h
      obtain ⟨hkind, hopens⟩ := LiteralRule.lexeme?_parts hlexeme
      obtain ⟨hopener, -, hliteral, -⟩ :=
        LiteralRule.isPlain_parts (hplain.literal rule hrule)
      refine ⟨Delimiter.opensAt_head hopener hopens, ?_⟩
      rw [hkind]
      intro hcode
      rw [hcode] at hliteral
      cases hliteral

/-- A span that is not code starts with a character that is no white space. -/
theorem Rules.Plain.spansFrom_heads {rules : Rules}
    {literals : List LiteralRule} (hplain : rules.Plain literals) (start : Nat)
    (gathered : List Char) (before : Option Char) (cs : List Char) :
    ∀ span ∈ rules.spansFrom literals start gathered before cs,
      span.kind ≠ .code →
      ∃ c, span.chars.head? = some c ∧ Text.isBlank c = false := by
  have hcode : ∀ (start : Nat) (chars : List Char),
      ∀ span ∈ codeSpan start chars, span.kind = .code := by
    intro start chars span hspan
    unfold codeSpan at hspan
    split at hspan
    · cases hspan
    · rw [List.mem_singleton.1 hspan]
  fun_induction Rules.spansFrom rules literals start gathered before cs with
  | case1 start gathered before =>
      intro span hspan hkind
      exact absurd (hcode _ _ span hspan) hkind
  | case2 start gathered before c cs lexeme hlexeme chars offset ih =>
      intro span hspan hkind
      rcases List.mem_append.1 hspan with hspan | hspan
      · exact absurd (hcode _ _ span hspan) hkind
      · rcases List.mem_cons.1 hspan with rfl | hspan
        · refine ⟨c, ?_, (hplain.lexemeAt? hlexeme).1⟩
          obtain ⟨n, hn⟩ : ∃ n, lexeme.length = n + 1 :=
            Nat.exists_eq_succ_of_ne_zero
              (Nat.pos_iff_ne_zero.1 lexeme.length_pos)
          simp only [chars, hn, List.take_succ_cons, List.head?_cons]
        · exact ih span hspan hkind
  | case3 start gathered before c cs hlexeme ih => exact ih

end Marginalia
