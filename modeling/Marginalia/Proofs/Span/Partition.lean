/-
The spans of a text partition it, and only the last can be unfinished.

That the spans tile the text holds of any table. Where delimiters have
characters and literals are literals, two stretches of code never meet, and
a comment or literal without a closer takes all that is left of the text. So
there is at most one, it comes last, and it is what the only diagnostic is
about (`spans_partition_text`). That a closer was not found is said by the
grammars of the comment or literal (`Unfinished`).
-/
import Marginalia.Proofs.Span.Described
import Mathlib.Data.List.Chain

namespace Marginalia

/-- Spans that follow each other through a text, none of them empty and no
two stretches of code next to each other. -/
structure Partitions (text : List Char) (spans : List Span) : Prop where
  nonempty : ∀ span ∈ spans, span.chars ≠ []
  first : ∀ span ∈ spans.head?, span.start = 0
  last : (spans.getLast?.map Span.stop).getD 0 = text.length
  contiguous : spans.IsChain fun a b => a.stop = b.start
  slices : ∀ span ∈ spans, span.chars = Text.slice text span.start span.stop
  joined : spans.flatMap (·.chars) = text
  apart : spans.IsChain fun a b => ¬ (a.kind = .code ∧ b.kind = .code)

-- =========================================================== tilings

/-- Tiling spans follow each other without a gap. -/
theorem Tiles.contiguous {offset : Nat} {spans : List Span}
    (h : Tiles offset spans) :
    spans.IsChain fun a b => a.stop = b.start := by
  induction spans generalizing offset with
  | nil => exact .nil
  | cons a spans ih =>
      obtain ⟨-, -, hrest⟩ := h
      refine List.isChain_cons.2 ⟨fun b hb => ?_, ih hrest⟩
      cases spans with
      | nil => cases hb
      | cons b' spans =>
          rw [List.head?_cons, Option.mem_some_iff] at hb
          rw [← hb]
          exact hrest.1.symm

/-- So they stand in order, none in another. -/
theorem Tiles.pairwise {offset : Nat} {spans : List Span}
    (h : Tiles offset spans) :
    spans.Pairwise fun a b => a.stop ≤ b.start := by
  induction spans generalizing offset with
  | nil => exact .nil
  | cons span spans ih =>
      obtain ⟨-, -, htail⟩ := h
      exact List.pairwise_cons.2 ⟨fun b hb => (htail.mem hb).1, ih htail⟩

/-- The first of them starts where the tiling does. -/
theorem Tiles.first {offset : Nat} {spans : List Span}
    (h : Tiles offset spans) :
    ∀ span ∈ spans.head?, span.start = offset := by
  intro span hspan
  cases spans with
  | nil => cases hspan
  | cons a spans =>
      rw [List.head?_cons, Option.mem_some_iff] at hspan
      rw [← hspan]
      exact h.1

/-- The last span of a tiling stands at its end, behind all others. -/
theorem Tiles.last {offset : Nat} {front : List Span} {span : Span}
    (h : Tiles offset (front ++ [span])) :
    span.stop = tilesEnd offset (front ++ [span])
      ∧ ∀ other ∈ front, other.stop ≤ span.start := by
  obtain ⟨hfront, hstart, -, -⟩ := h.of_append
  refine ⟨?_, fun other hother => ?_⟩
  · rw [Span.stop, hstart, tilesEnd, tilesEnd, List.flatMap_append,
      List.length_append, List.flatMap_singleton]
    omega
  · rw [hstart]
    exact (hfront.mem hother).2.2

-- ======================================================= diagnostics

theorem Span.diagnostics_append (lines : Text.Lines) (front back : List Span) :
    Span.diagnostics lines (front ++ back)
      = Span.diagnostics lines front ++ Span.diagnostics lines back :=
  List.filterMap_append

/-- Closed spans have no diagnostics. -/
theorem Span.diagnostics_eq_nil {lines : Text.Lines} {spans : List Span}
    (h : ∀ span ∈ spans, span.unclosed = none) :
    Span.diagnostics lines spans = [] := by
  refine List.filterMap_eq_nil_iff.2 fun span hspan => ?_
  rw [h span hspan]
  rfl

-- ========================================================= the spans

namespace Rules

variable {rules : Rules}

/-- Two stretches of code never meet. -/
theorem Delimited.spansFrom_apart (hrules : rules.Delimited) (start : Nat)
    (gathered : List Char) (before : Option Char) (cs : List Char) :
    (rules.spansFrom rules.orderedLiterals start gathered before cs).IsChain
      fun a b => ¬ (a.kind = .code ∧ b.kind = .code) := by
  have hcode : ∀ (start : Nat) (chars : List Char),
      (codeSpan start chars).IsChain fun a b =>
        ¬ (a.kind = .code ∧ b.kind = .code) := by
    intro start chars
    unfold codeSpan
    split
    · exact .nil
    · exact .singleton _
  fun_induction Rules.spansFrom rules rules.orderedLiterals start gathered
    before cs with
  | case1 start gathered before => exact hcode _ _
  | case2 start gathered before c cs lexeme hlexeme chars offset ih =>
      obtain ⟨a, hfirst, hkind, -, -⟩ := hrules.lexemeAt?_takes hlexeme
      have hne : lexeme.kind ≠ .code := by
        rw [hkind]
        rcases hrules.kind_cases hfirst.applies with rfl | rfl | ⟨rule, kind,
          rfl, hrule⟩
        · exact SpanKind.noConfusion
        · exact SpanKind.noConfusion
        · rw [Alternative.kind, hrule]
          exact SpanKind.noConfusion
      refine List.isChain_append.2 ⟨hcode _ _, List.isChain_cons.2 ⟨?_, ih⟩, ?_⟩
      · rintro b - ⟨hlex, -⟩
        exact hne hlex
      · rintro a - b hb ⟨-, hlex⟩
        rw [List.head?_cons, Option.mem_some_iff] at hb
        rw [← hb] at hlex
        exact hne hlex
  | case3 start gathered before c cs hlexeme ih => exact ih

/-- The spans of every text are such, whatever the text holds. -/
theorem Delimited.spans_partition (hrules : rules.Delimited)
    (text : List Char) :
    Partitions text (rules.spans text) := by
  have htiles := spans_tiles rules text
  have hjoined := spans_chars rules text
  refine ⟨fun span hspan hnil => ?_, htiles.first, ?_, htiles.contiguous,
    fun span hspan => ?_, hjoined, hrules.spansFrom_apart 0 [] none text⟩
  · have hlt := (htiles.mem hspan).2.1
    rw [Span.stop, hnil, List.length_nil] at hlt
    omega
  · rcases List.eq_nil_or_concat (rules.spans text) with hnil | ⟨front,
      last, hlast⟩
    · rw [hnil] at hjoined ⊢
      rw [← hjoined]
      rfl
    · have hend := spans_end rules text
      rw [List.concat_eq_append] at hlast
      rw [hlast] at htiles hend ⊢
      rw [List.getLast?_append, List.getLast?_singleton, Option.some_or,
        Option.map_some, Option.getD_some, htiles.last.1, hend]
  · rw [Text.slice, spans_drop hspan, Span.stop, Nat.add_sub_cancel_left,
      List.take_left]

-- ================================================== unfinished spans

/-- The text ends inside the span: its grammar finds no closer in it. -/
inductive Unfinished (rules : Rules) (text : List Char) (span : Span) :
    Unclosed → Prop where
  | comment (kind : span.kind = .comment .block)
    (unclosed : ∀ body rest,
      span.chars = rules.blockOpener.chars ++ (body ++ rest) →
      ¬ rules.Closes 0 body rest) : Unfinished rules text span .comment
  | literal (rule : LiteralRule)
    (first : rules.FirstStart text span.start (.literal rule))
    (unclosed : ∀ content,
      ¬ rule.Content (span.chars.drop rule.opener.length) content) :
    Unfinished rules text span (.literal rule.opener)

/-- A comment or literal without a closer takes the rest of the text. -/
theorem Takes.rest_eq_nil {a : Alternative} {chars rest : List Char}
    {what : Unclosed} (h : rules.Takes a chars rest (some what)) :
    rest = [] := by
  generalize hunclosed : some what = unclosed at h
  cases h with
  | line => cases hunclosed
  | block => cases hunclosed
  | openBlock => rfl
  | literal => cases hunclosed
  | openLiteral => rfl

/-- A span that is not closed goes to the end of the text. -/
theorem Makes.unclosed_stop {text : List Char} {span : Span} {what : Unclosed}
    (h : rules.Makes text span) (hunclosed : span.unclosed = some what) :
    text.length ≤ span.stop := by
  cases h with
  | code _ closed =>
      rw [closed] at hunclosed
      cases hunclosed
  | lexeme a _ _ takes =>
      rw [hunclosed] at takes
      exact List.drop_eq_nil_iff.1 takes.rest_eq_nil

/-- The last span says that it is unclosed exactly when it is. -/
theorem Delimited.unclosed_iff (hrules : rules.Delimited) {text : List Char}
    {span : Span} (hmakes : rules.Makes text span)
    (hne : span.start < span.stop) (hstop : span.stop = text.length)
    {what : Unclosed} :
    span.unclosed = some what ↔ rules.Unfinished text span what := by
  have hrest : text.drop span.stop = [] :=
    List.drop_eq_nil_iff.2 (Nat.le_of_eq hstop.symm)
  cases hmakes with
  | code kind closed nothing =>
      rw [closed]
      constructor
      · intro hnone
        cases hnone
      · intro hunfinished
        cases hunfinished with
        | comment kind' =>
            rw [kind] at kind'
            cases kind'
        | literal rule first =>
            exact absurd first.applies
              (nothing span.start (Nat.le_refl _) hne _)
  | lexeme a kind first takes =>
      rw [hrest] at takes
      constructor
      · intro hunclosed
        rw [hunclosed] at takes
        generalize hchars : span.chars = chars at takes
        cases takes with
        | @openBlock body hopen =>
            refine .comment kind fun front back hsplit => hopen front back ?_
            rw [hchars] at hsplit
            exact List.append_cancel_left hsplit
        | @openLiteral rule body unbounded hopen =>
            refine .literal rule first fun content hcontent => hopen content ?_
            rw [hchars, Delimiter.length, List.drop_left] at hcontent
            exact hcontent
      · intro hunfinished
        generalize hchars : span.chars = chars at takes
        generalize span.unclosed = unclosed at takes
        cases hunfinished with
        | comment hkind hopen =>
            rw [hkind] at kind
            rcases hrules.kind_cases first.applies with rfl | rfl | ⟨rule, _,
              rfl, hrule⟩
            · cases kind
            · cases takes with
              | @block body _ hcloses =>
                  refine absurd hcloses (hopen body [] ?_)
                  rw [hchars, List.append_nil]
              | openBlock => rfl
            · rw [Alternative.kind, hrule] at kind
              cases kind
        | literal rule hfirst hopen =>
            obtain rfl := first.unique hfirst
            cases takes with
            | @literal _ content _ hcontent =>
                rw [List.append_nil] at hcontent
                refine absurd ?_ (hopen content)
                rw [hchars, Delimiter.length, List.drop_left]
                exact hcontent
            | openLiteral => rfl

/-- Only the last span is unclosed, if any is. -/
theorem Delimited.diagnostics_eq (hrules : rules.Delimited) (lines : Text.Lines)
    (text : List Char) :
    Span.diagnostics lines (rules.spans text)
      = ((rules.spans text).getLast?.bind fun last =>
        last.unclosed.map fun what =>
          ⟨.unclosed what, last.start, lines.lineOf last.start⟩).toList := by
  have hmakes := hrules.spans_made text
  have htiles := spans_tiles rules text
  have hend := spans_end rules text
  rcases List.eq_nil_or_concat (rules.spans text) with hnil | ⟨front,
    last, hlast⟩
  · rw [hnil]
    rfl
  · rw [List.concat_eq_append] at hlast
    rw [hlast] at hmakes htiles hend ⊢
    obtain ⟨hstop, hbefore⟩ := htiles.last
    have hclosed : ∀ span ∈ front, span.unclosed = none := by
      intro span hspan
      cases hunclosed : span.unclosed with
      | none => rfl
      | some what =>
          have hpast :=
            (hmakes span (List.mem_append_left _ hspan)).unclosed_stop hunclosed
          have hle := hbefore span hspan
          have hlt :=
            (htiles.mem
              (List.mem_append_right front (List.mem_singleton_self last))).2.1
          omega
    rw [Span.diagnostics_append, Span.diagnostics_eq_nil hclosed,
      List.nil_append, List.getLast?_append, List.getLast?_singleton,
      Option.some_or, Option.bind_some, Span.diagnostics, List.filterMap_cons,
      List.filterMap_nil]
    cases last.unclosed with
    | none => rfl
    | some what => rfl

end Rules

/-- For every table whose delimiters have characters, and so for that of every
dialect, the spans of a text partition it; there is at most one diagnostic,
and it is about the start of the last span, when that is unfinished. -/
theorem spans_partition_text :
    (∀ dialect : Dialect, dialect.rules.Delimited)
      ∧ ∀ rules : Rules, rules.Delimited → ∀ text : List Char,
        Partitions text (rules.spans text)
          ∧ (Span.diagnostics (.ofText text) (rules.spans text)).length ≤ 1
          ∧ ∀ d, d ∈ Span.diagnostics (.ofText text) (rules.spans text)
            ↔ ∃ last what, (rules.spans text).getLast? = some last
              ∧ rules.Unfinished text last what
              ∧ d = ⟨.unclosed what, last.start,
                (Text.Lines.ofText text).lineOf last.start⟩ := by
  refine ⟨Dialect.delimited,
    fun rules hrules text => ⟨hrules.spans_partition text, ?_, fun d => ?_⟩⟩
  · rw [hrules.diagnostics_eq]
    exact Option.length_toList_le
  · have hlast : ∀ last, (rules.spans text).getLast? = some last → ∀ what,
        last.unclosed = some what ↔ rules.Unfinished text last what := by
      intro last hlast what
      have hmem := List.mem_of_getLast? hlast
      have hstop := (hrules.spans_partition text).last
      rw [hlast, Option.map_some, Option.getD_some] at hstop
      exact hrules.unclosed_iff (hrules.spans_made text last hmem)
        ((spans_tiles rules text).mem hmem).2.1 hstop
    rw [hrules.diagnostics_eq, Option.mem_toList, Option.bind_eq_some_iff]
    constructor
    · rintro ⟨last, hsome, hd⟩
      obtain ⟨what, hwhat, rfl⟩ := Option.map_eq_some_iff.1 hd
      exact ⟨last, what, hsome, (hlast last hsome what).1 hwhat, rfl⟩
    · rintro ⟨last, what, hsome, hunfinished, rfl⟩
      refine ⟨last, hsome, ?_⟩
      rw [(hlast last hsome what).2 hunfinished]
      rfl

/-- A string that ends in an escape. -/
def trailingEscape : List Char := "x = \"a\\".toList

/-- A string that ends in an escape has no closer. -/
theorem spans_partition_trailing_escape :
    Dialect.c.rules.Delimited
      ∧ Partitions trailingEscape (Dialect.c.rules.spans trailingEscape)
      ∧ ∃ last, (Dialect.c.rules.spans trailingEscape).getLast? = some last
        ∧ Dialect.c.rules.Unfinished trailingEscape last (.literal ⟨['"']⟩)
        ∧ last.start = 4 := by
  have hrules := spans_partition_text.1 .c
  obtain ⟨hpartition, -, hdiagnostics⟩ :=
    spans_partition_text.2 _ hrules trailingEscape
  refine ⟨hrules, hpartition, ?_⟩
  have hreported : Span.diagnostics (.ofText trailingEscape)
        (Dialect.c.rules.spans trailingEscape)
      = [⟨.unclosed (.literal ⟨['"']⟩), 4, 1⟩] := by
    rw [Dialect.spans_eq]
    decide +kernel
  obtain ⟨last, what, hlast, hunfinished, heq⟩ :=
    (hdiagnostics _).1 (hreported ▸ List.mem_singleton_self _)
  simp only [Diagnostic.mk.injEq, Problem.unclosed.injEq] at heq
  exact ⟨last, hlast, heq.1 ▸ hunfinished, heq.2.1.symm⟩

end Marginalia
