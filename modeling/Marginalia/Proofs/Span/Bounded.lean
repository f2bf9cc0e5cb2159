/-
Bounded literals.

A literal with a bound must close in time and on its line, or its opener is
code. The bound and the line are looked at once for each piece of the
content: a character, a closer written twice, or an escape with the character
it takes. So the closer is never too far away, since it is looked at itself,
but the character that an escape takes is not looked at. A line feed stays in
a bounded literal exactly there (`bounded_literal_closes_in_time`,
`escaped_break_stays_in_literal`).

All of this holds of any table. A closer may then have a line feed of its
own, which is content where the closer is written twice (`InDoubledCloser`).
-/
import Marginalia.Proofs.Span.Described
import Mathlib.Data.List.Basic

namespace Marginalia

-- ======================================================= the content

namespace LiteralRule

variable {rule : LiteralRule}

/-- The parts of the content around one of its characters reach out to a closer
written twice, which the character stands in. -/
def InDoubledCloser (rule : LiteralRule) (front : List Char) (c : Char)
    (back : List Char) : Prop :=
  rule.doubledCloser = true ∧ ∃ before left right after,
    front = before ++ left ∧ back = right ++ after
      ∧ left ++ c :: right = rule.closer.chars ++ rule.closer.chars

/-- Every line feed of the content stands right behind an escape, or in a closer
written twice. -/
def EscapesBreaks (rule : LiteralRule) (content : List Char) : Prop :=
  ∀ front back, content = front ++ '\n' :: back →
    (∃ escape, rule.escape = some [escape] ∧ front.getLast? = some escape)
      ∨ rule.InDoubledCloser front '\n' back

/-- Content without line feeds escapes all of them. -/
theorem EscapesBreaks.of_notMem {content : List Char} (h : '\n' ∉ content) :
    rule.EscapesBreaks content := by
  intro front back hcontent
  exact absurd (by simp [hcontent]) h

/-- An escape and the character that it takes. -/
theorem EscapesBreaks.escaped {e : Char} (hescape : rule.escape = some [e])
    (he : e ≠ '\n') (c : Char) : rule.EscapesBreaks [e, c] := by
  intro front back hcontent
  match front with
  | [] =>
      injection hcontent with heq
      exact absurd heq he
  | [d] =>
      injection hcontent with heq
      exact .inl ⟨e, hescape, by rw [heq]; rfl⟩
  | _ :: _ :: front => simp at hcontent

/-- A closer written twice. -/
theorem EscapesBreaks.doubled (h : rule.doubledCloser = true) :
    rule.EscapesBreaks (rule.closer.chars ++ rule.closer.chars) := by
  intro front back hcontent
  exact .inr ⟨h, [], front, back, [], rfl, (List.append_nil back).symm,
    hcontent.symm⟩

/-- Content is put together from pieces, none of which starts with a line feed
that an escape in front of it would have to take. -/
theorem EscapesBreaks.append {piece content : List Char}
    (hpiece : rule.EscapesBreaks piece)
    (hcontent : rule.EscapesBreaks content) :
    rule.EscapesBreaks (piece ++ content) := by
  -- a line feed of the second piece
  have hsecond : ∀ inside back, content = inside ++ '\n' :: back →
      (∃ escape, rule.escape = some [escape]
          ∧ (piece ++ inside).getLast? = some escape)
        ∨ rule.InDoubledCloser (piece ++ inside) '\n' back := by
    intro inside back hinside
    rcases hcontent inside back hinside with
      ⟨escape, hescape, hlast⟩ | ⟨hdoubled, before, left, right, after,
        rfl, hrest⟩
    · refine .inl ⟨escape, hescape, ?_⟩
      rw [List.getLast?_append, hlast, Option.some_or]
    · exact .inr ⟨hdoubled, piece ++ before, left, right, after,
        (List.append_assoc ..).symm, hrest⟩
  intro front back hsplit
  rcases List.append_eq_append_iff.1 hsplit with
    ⟨inside, rfl, hinside⟩ | ⟨rest, rfl, hrest⟩
  · exact hsecond inside back hinside
  · cases rest with
    | nil =>
        have h := hsecond [] back hrest.symm
        rwa [List.append_nil, List.append_nil] at h
    | cons c rest =>
        injection hrest with hc hback
        subst hc hback
        rcases hpiece front rest rfl with
          hescape | ⟨hdoubled, before, left, right, after, rfl, rfl, hcloser⟩
        · exact .inl hescape
        · exact .inr ⟨hdoubled, before, left, right, after ++ content, rfl,
            List.append_assoc .., hcloser⟩

/-- Content between the delimiters of a literal at the start of the text, such
that the closer is within the limit and on the line, line feeds apart that are
escaped or in a closer written twice. -/
structure Fits (rule : LiteralRule) (limit : Nat) (cs content : List Char) :
    Prop where
  stands : rule.opener.chars ++ (content ++ rule.closer.chars) <+: cs
  within : rule.opener.length + content.length ≤ limit
  breaks : rule.EscapesBreaks content

-- ======================================================= the reading

variable {limit : Nat}

/-- A bounded literal is within bounds up to its limit and its line. -/
theorem exceeds_eq_false_iff (hbound : rule.maxLength = some limit)
    {offset : Nat} {c : Char} :
    rule.exceeds offset c = false ↔ offset ≤ limit ∧ c ≠ '\n' := by
  simp [exceeds, hbound]

/-- The body of a bounded literal closes within the limit, and only an escape
takes a line feed into it. -/
theorem bodyEnd_bounded (hbound : rule.maxLength = some limit) (offset : Nat)
    (cs : List Char) :
    ∀ {stop : Nat}, rule.bodyEnd offset cs = .closer stop →
      ∃ content rest, cs = content ++ rest ∧ rule.closer.chars <+: rest
        ∧ stop = offset + content.length ∧ stop ≤ limit
        ∧ rule.EscapesBreaks content := by
  fun_induction LiteralRule.bodyEnd rule offset cs with
  | case1 offset =>
      intro stop h
      cases h
  | case2 offset c cs hexceeds =>
      intro stop h
      cases h
  | case3 offset e cs hexceeds hescape ih =>
      intro stop h
      cases cs with
      | nil =>
          rw [List.drop_nil, bodyEnd] at h
          cases h
      | cons c cs =>
          obtain ⟨content, rest, hcs, hcloser, hstop, hlimit, hbreaks⟩ := ih h
          obtain ⟨-, he⟩ :=
            (exceeds_eq_false_iff hbound).1 (Bool.eq_false_iff.2 hexceeds)
          refine ⟨e :: c :: content, rest, ?_, hcloser, ?_, hlimit, ?_⟩
          · rw [List.cons_append, List.cons_append, ← hcs]
            rfl
          · rw [hstop, List.length_cons, List.length_cons]
            omega
          · exact (EscapesBreaks.escaped (by simpa using hescape) he c).append
              hbreaks
  | case4 offset c cs hexceeds hescape hcloses hdoubles ih =>
      intro stop h
      have hsplit := doublesCloser_split hdoubles
      obtain ⟨content, rest, hcs, hcloser, hstop, hlimit, hbreaks⟩ := ih h
      refine ⟨rule.closer.chars ++ rule.closer.chars ++ content, rest, ?_,
        hcloser, ?_, hlimit, ?_⟩
      · rw [← hsplit, hcs, ← List.append_assoc]
      · rw [hstop, List.length_append, List.length_append, Delimiter.length]
        omega
      · have hdoubled : rule.doubledCloser = true := by
          rw [doublesCloser, Bool.and_eq_true, Bool.and_eq_true] at hdoubles
          exact hdoubles.1.1
        exact (EscapesBreaks.doubled hdoubled).append hbreaks
  | case5 offset c cs hexceeds hescape hcloses hdoubles =>
      intro stop h
      injection h with hstop
      obtain ⟨hlimit, -⟩ :=
        (exceeds_eq_false_iff hbound).1 (Bool.eq_false_iff.2 hexceeds)
      refine ⟨[], c :: cs, rfl, Delimiter.startsAt_iff.1 hcloses,
        hstop.symm, ?_, ?_⟩
      · rw [← hstop]
        exact hlimit
      · exact .of_notMem List.not_mem_nil
  | case6 offset c cs hexceeds hescape hcloses ih =>
      intro stop h
      obtain ⟨content, rest, hcs, hcloser, hstop, hlimit, hbreaks⟩ := ih h
      obtain ⟨-, hc⟩ :=
        (exceeds_eq_false_iff hbound).1 (Bool.eq_false_iff.2 hexceeds)
      refine ⟨c :: content, rest, ?_, hcloser, ?_, hlimit, ?_⟩
      · rw [hcs, List.cons_append]
      · rw [hstop, List.length_cons]
        omega
      · have hpiece : '\n' ∉ [c] := by simpa using hc.symm
        exact (EscapesBreaks.of_notMem hpiece).append hbreaks

/-- A bounded literal that is read fits. -/
theorem lexeme?_fits (hbound : rule.maxLength = some limit)
    {before : Option Char} {cs : List Char} {lexeme : Lexeme}
    (h : rule.lexeme? before cs = some lexeme) :
    ∃ content, rule.Fits limit cs content
      ∧ cs.take lexeme.length
        = rule.opener.chars ++ (content ++ rule.closer.chars) := by
  obtain ⟨-, hopens⟩ := lexeme?_parts h
  rw [Delimiter.opensAt, Bool.and_eq_true, Delimiter.startsAt_iff] at hopens
  obtain ⟨-, body, rfl⟩ := hopens
  have hdrop : (rule.opener.chars ++ body).drop rule.opener.length = body :=
    List.drop_left
  unfold lexeme? at h
  simp only [hdrop, hbound, Option.isSome_some, Bool.true_and, if_true] at h
  split at h
  · cases h
  · split at h
    · cases h
    · split at h
      · cases h
      · next stop hend =>
        split at h
        · cases h
        · obtain ⟨content, rest, hbody, ⟨after, hafter⟩, hstop, hlimit,
              hbreaks⟩ :=
            bodyEnd_bounded hbound rule.opener.length body hend
          obtain ⟨-, hlength, -⟩ := Lexeme.ofLength?_iff.1 h
          have hwhole : rule.opener.chars ++ body
              = rule.opener.chars ++ (content ++ rule.closer.chars)
                ++ after := by
            rw [hbody, ← hafter, List.append_assoc, List.append_assoc]
          refine ⟨content, ⟨⟨after, hwhole.symm⟩, by omega, hbreaks⟩, ?_⟩
          have hchars : lexeme.length
              = (rule.opener.chars
                ++ (content ++ rule.closer.chars)).length := by
            rw [hlength, hstop, List.length_append, List.length_append,
              Delimiter.length, Delimiter.length, Nat.add_assoc]
          rw [hchars, hwhole, List.take_left]
      · cases h

end LiteralRule

-- ======================================================= in the text

/-- The span is a literal of the rule: no comment opens at its start, and of
the literals tried there the rule is the first that is read. -/
structure Rules.LiteralOf (rules : Rules) (text : List Char)
    (rule : LiteralRule) (span : Span) : Prop where
  mem : span ∈ rules.spans text
  line : rules.lineComment.opensAt (text.drop span.start) = false
  block : rules.blockOpener.opensAt (text.drop span.start) = false
  first : ∃ tried others, rules.orderedLiterals = tried ++ rule :: others
    ∧ ∀ other ∈ tried,
      other.lexeme? (Text.charBefore text span.start) (text.drop span.start)
        = none
  read :
    (rule.lexeme? (Text.charBefore text span.start)
      (text.drop span.start)).isSome = true

/-- A literal of a rule is what the rule reads at its start. -/
theorem Rules.LiteralOf.readAt? {rules : Rules} {text : List Char}
    {rule : LiteralRule} {span : Span} (h : rules.LiteralOf text rule span) :
    ∃ lexeme, rules.readAt? text span.start = some lexeme
      ∧ rule.lexeme? (Text.charBefore text span.start) (text.drop span.start)
        = some lexeme
      ∧ span.chars = (text.drop span.start).take lexeme.length := by
  obtain ⟨lexeme, hlexeme⟩ := Option.isSome_iff_exists.1 h.read
  obtain ⟨tried, others, hliterals, htried⟩ := h.first
  have hread : rules.readAt? text span.start = some lexeme := by
    rw [Rules.readAt?, Rules.lexemeAt?, h.line, h.block,
      if_neg Bool.false_ne_true, if_neg Bool.false_ne_true,
      List.findSome?_eq_some_iff]
    exact ⟨tried, rule, others, hliterals, hlexeme, htried⟩
  refine ⟨lexeme, hread, hlexeme, ?_⟩
  cases rules.spans_read text span h.mem with
  | code kind closed nothing =>
      obtain ⟨-, hlt, -⟩ := (spans_tiles rules text).mem h.mem
      rw [nothing span.start (Nat.le_refl _) hlt] at hread
      cases hread
  | lexeme found read kind unclosed chars =>
      rw [chars, Option.some.inj (read.symm.trans hread)]

/-- Every literal of a bounded rule has its closer within the limit and no line
feeds in its content but escaped ones and those in a closer written twice. A
place where no comment opens, and
where no literal that opens would be so, is left to the code. -/
theorem bounded_literal_closes_in_time (rules : Rules) (text : List Char) :
    (∀ (rule : LiteralRule) (limit : Nat) (span : Span), rule.maxLength
      = some limit →
        rules.LiteralOf text rule span →
          ∃ content, span.chars
            = rule.opener.chars ++ (content ++ rule.closer.chars)
            ∧ rule.Fits limit (text.drop span.start) content)
      ∧ ∀ offset, rules.lineComment.opensAt (text.drop offset) = false →
        rules.blockOpener.opensAt (text.drop offset) = false →
        (∀ rule ∈ rules.literals,
          rule.opener.opensAt (text.drop offset) = true →
          ∃ limit, rule.maxLength = some limit
            ∧ ∀ content, ¬ rule.Fits limit (text.drop offset) content) →
        ∀ span ∈ rules.spans text, span.start ≤ offset → offset < span.stop →
          span.kind = .code ∨ span.start < offset := by
  constructor
  · intro rule limit span hbound hliteral
    obtain ⟨lexeme, -, hlexeme, hchars⟩ := hliteral.readAt?
    obtain ⟨content, hfits, htake⟩ := LiteralRule.lexeme?_fits hbound hlexeme
    exact ⟨content, hchars.trans htake, hfits⟩
  · intro offset hline hblock hliterals span hspan hlow hhigh
    have hnone : rules.readAt? text offset = none := by
      rw [Rules.readAt?, Rules.lexemeAt?, hline, hblock,
        if_neg Bool.false_ne_true, if_neg Bool.false_ne_true,
        List.findSome?_eq_none_iff]
      intro rule hrule
      refine Option.eq_none_iff_forall_ne_some.2 fun lexeme hlexeme => ?_
      obtain ⟨-, hopens⟩ := LiteralRule.lexeme?_parts hlexeme
      obtain ⟨limit, hbound, hfits⟩ :=
        hliterals rule (List.mem_mergeSort.1 hrule) hopens
      obtain ⟨content, hcontent, -⟩ := LiteralRule.lexeme?_fits hbound hlexeme
      exact hfits content hcontent
    cases rules.spans_read text span hspan with
    | code kind => exact .inl kind
    | lexeme lexeme read =>
        refine .inr (Nat.lt_of_le_of_ne hlow fun heq => ?_)
        rw [heq, hnone] at read
        cases read

namespace BoundedLiterals

/-- The character literal of Rust. -/
def character : LiteralRule := { quotedCharacter with maxLength := some 12 }

/-- An escaped line feed between apostrophes. -/
def escaped : List Char := "'\\\n'".toList

def literal : Span := { kind := .literal .char, start := 0, chars := escaped }

theorem literalOf : Dialect.rust.rules.LiteralOf escaped character literal where
  mem := by
    rw [Dialect.spans_eq]
    decide +kernel
  line := by decide
  block := by decide
  first :=
    ⟨Dialect.rust.rules.literals.take 3, [], Dialect.rust.orderedLiterals_eq,
    by decide +kernel⟩
  read := by decide +kernel

end BoundedLiterals

open BoundedLiterals in
/-- A line feed that an escape takes stays in a bounded literal. -/
theorem escaped_break_stays_in_literal :
    ∃ rule limit span, rule.maxLength = some limit
      ∧ Dialect.rust.rules.LiteralOf escaped rule span ∧ '\n' ∈ span.chars :=
  ⟨character, 12, literal, rfl, literalOf, by decide⟩

open BoundedLiterals in
/-- An apostrophe with a line feed behind it is code, unless the line feed is
escaped. -/
theorem apostrophes_around_break :
    (∃ content, literal.chars
      = character.opener.chars ++ (content ++ character.closer.chars)
        ∧ character.Fits 12 escaped content)
      ∧ ∀ span ∈ Dialect.rust.rules.spans "'\n'".toList,
        span.start = 0 → span.kind = .code := by
  constructor
  · exact (bounded_literal_closes_in_time _ _).1 character 12 literal rfl
      literalOf
  · intro span hspan hstart
    have hpos := ((spans_tiles _ _).mem hspan).2.1
    refine ((bounded_literal_closes_in_time _ _).2 0 (by decide) (by decide) ?_
      span hspan (Nat.le_of_eq hstart) (hstart ▸ hpos)).resolve_right (by omega)
    intro rule hrule hopens
    obtain rfl : rule = character := by
      revert rule
      decide
    refine ⟨12, rfl, fun content hfits => ?_⟩
    obtain ⟨rest, hrest⟩ := hfits.stands
    cases content with
    | nil => exact absurd (List.cons.inj (List.cons.inj hrest).2).1 (by decide)
    | cons c content =>
        have hc : c = '\n' := (List.cons.inj (List.cons.inj hrest).2).1
        rcases hfits.breaks [] content (by rw [hc]; rfl) with
          ⟨escape, -, hlast⟩ | ⟨hdoubled, -⟩
        · cases hlast
        · exact absurd hdoubled (by decide)

end Marginalia
