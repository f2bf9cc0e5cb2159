/-
Reading a text can stop and start again at the end of any span.

Reading looks at one character in front of a place, for literals that must
not continue a word, and ahead of it, for closers written twice, bounded
literals and nested comments. Neither look crosses the end of a span in a
way that matters.

Ahead: what a comment or literal takes it also takes of a text that is cut
behind it, and what may start in the text that is left may start in the
whole (`Takes.cut`, `AppliesAt.extend`); so the first alternative is the same
one in both (`first_cut`).

Behind: a comment or literal ends in a delimiter that is no part of a word,
in front of a line feed, or with the text. Where one follows code instead,
every other alternative that a word in front would hold back is held back
together with it, since openers that must not continue a word share no first
character with those that may (`FirstAt.forget`).

Both are said of tables that are `Seamless`, as those of all dialects are.
-/
import Marginalia.Proofs.Span.Joined
import Marginalia.Proofs.Span.Partition
import Marginalia.Proofs.Span.Search

namespace Marginalia

/-- A table of which one can say at the end of a span how the text goes on,
without the span or without what follows it. -/
structure Rules.Seamless (rules : Rules) : Prop where
  lineBreak : '\n' ∉ rules.starters
  blockCloser : rules.blockCloser.last?.any Text.isWordChar = false
  closer : ∀ rule ∈ rules.literals,
    rule.closer.last?.any Text.isWordChar = false
  single : ∀ rule ∈ rules.literals,
    rule.maxLength.isSome = true → rule.doubledCloser = false
  prefixed : ∀ rule ∈ rules.literals, ∀ other ∈ rules.literals,
    rule.opener.chars.head? = other.opener.chars.head? →
      rule.wordPrefixed = other.wordPrefixed

theorem Dialect.seamless (dialect : Dialect) : dialect.rules.Seamless := by
  cases dialect <;>
    exact ⟨by decide +kernel, by decide +kernel, by decide +kernel,
      by decide +kernel, by decide +kernel⟩

namespace Rules

variable {rules : Rules}

-- ===================================================== looking ahead

/-- What may start may still do so when more text follows. -/
theorem AppliesAt.extend (hrules : rules.Delimited) (hseam : rules.Seamless)
    {before : Option Char} {cs : List Char} (more : List Char) {a : Alternative}
    (h : rules.AppliesAt before cs a) :
    rules.AppliesAt before (cs ++ more) a := by
  have hmore : cs <+: cs ++ more := List.prefix_append cs more
  cases a with
  | line => exact List.IsPrefix.trans h hmore
  | block => exact List.IsPrefix.trans h hmore
  | literal rule =>
      obtain ⟨hrule, happlies⟩ := h
      refine ⟨hrule, happlies.opener.trans hmore, happlies.apart,
        fun hmax => ?_⟩
      obtain ⟨content, hcontent, hone⟩ := happlies.accepted hmax
      have hcloser := (hrules.literal rule hrule).2.1
      rw [Delimiter.length,
        List.drop_append_of_le_length happlies.opener.length_le]
      exact ⟨content,
        hcontent.extend hcloser (hseam.single rule hrule hmax) more, hone⟩

/-- What is taken is taken as well when the text behind it is cut. -/
theorem Takes.cut {a : Alternative}
    (hcloser : ∀ rule, a = .literal rule → rule.closer.chars ≠ [])
    {chars rest more : List Char} {unclosed : Option Unclosed}
    (h : rules.Takes a chars (rest ++ more) unclosed) :
    rules.Takes a chars rest unclosed := by
  generalize hbehind : rest ++ more = behind at h
  cases h with
  | line inside stop =>
      subst hbehind
      refine .line inside ?_
      cases rest with
      | nil => exact Or.inl rfl
      | cons c rest =>
          rcases stop with hnil | hhead
          · cases hnil
          · exact Or.inr hhead
  | block closes =>
      subst hbehind
      exact .block (closes.cut more)
  | openBlock unclosed =>
      rw [(List.append_eq_nil_iff.1 hbehind).1]
      exact .openBlock unclosed
  | @literal rule content _ closes =>
      subst hbehind
      rw [← List.append_assoc rule.closer.chars, ← List.append_assoc content]
        at closes
      refine .literal (closes.cut (hcloser rule rfl) ?_)
      rw [List.length_append, List.length_append, Delimiter.length]
      omega
  | openLiteral unbounded unclosed =>
      rw [(List.append_eq_nil_iff.1 hbehind).1]
      exact .openLiteral unbounded unclosed

theorem FirstAt.mem {before : Option Char} {cs : List Char} {a : Alternative}
    (h : rules.FirstAt before cs a) :
    ∀ rule, a = .literal rule → rule ∈ rules.literals := by
  rintro rule rfl
  exact h.applies.1

/-- The first alternative stays the first when the text behind what it takes
is cut. -/
theorem Delimited.first_cut (hrules : rules.Delimited) (hseam : rules.Seamless)
    {before : Option Char} {a : Alternative} {chars rest more : List Char}
    {unclosed : Option Unclosed}
    (hfirst : rules.FirstAt before (chars ++ (rest ++ more)) a)
    (htakes : rules.Takes a chars (rest ++ more) unclosed) :
    rules.FirstAt before (chars ++ rest) a := by
  have hextend : ∀ b, rules.AppliesAt before (chars ++ rest) b →
      rules.AppliesAt before (chars ++ (rest ++ more)) b := by
    intro b hb
    rw [← List.append_assoc]
    exact hb.extend hrules hseam more
  have hopener : (rules.openerOf a).chars <+: chars ++ rest :=
    (hrules.takes_opener htakes hfirst.applies).trans
      (List.prefix_append chars rest)
  cases a with
  | line => exact hopener
  | block => exact ⟨fun hline => hfirst.1 (hextend .line hline), hopener⟩
  | literal rule =>
      obtain ⟨hline, hblock, ⟨hrule, happlies⟩, hlongest⟩ := hfirst
      refine ⟨fun h => hline (hextend .line h),
        fun h => hblock (hextend .block h),
        ⟨hrule, hopener, happlies.apart, fun hmax => ?_⟩,
          hlongest.imp fun other hother h =>
            (hextend (.literal other) ⟨hother, h⟩).2⟩
      have hcloser := (hrules.literal rule hrule).2.1
      have hdrop : ∀ body : List Char,
          (rule.opener.chars ++ body).drop rule.opener.length = body :=
            fun _ => List.drop_left
      obtain ⟨content, hcontent, hone⟩ := happlies.accepted hmax
      rw [← List.append_assoc] at hcontent
      -- a bounded literal that is taken has closed, on the content it was
      -- accepted for
      have htakes' := htakes.cut (by rintro _ ⟨⟩; exact hcloser)
      cases htakes' with
      | @literal _ taken _ closes =>
          have hwhole :=
            closes.extend hcloser (hseam.single rule hrule hmax) more
          simp only [List.append_assoc, hdrop] at hcontent hwhole ⊢
          obtain rfl := hwhole.unique hcloser hcontent
          exact ⟨taken, closes, hone⟩
      | openLiteral unbounded =>
          rw [unbounded] at hmax
          cases hmax

/-- A comment or literal that lies in the front of a text is read there. -/
theorem Delimited.lexemeAt?_cut (hrules : rules.Delimited)
    (hseam : rules.Seamless) {before : Option Char} {front more : List Char}
    {lexeme : Lexeme}
    (h : rules.lexemeAt? rules.orderedLiterals before (front ++ more)
      = some lexeme) (hle : lexeme.length ≤ front.length) :
    rules.lexemeAt? rules.orderedLiterals before front = some lexeme := by
  rw [hrules.lexemeAt?_some_iff] at h ⊢
  obtain ⟨a, hfirst, chars, rest, hsplit, htakes, hkind, hlength⟩ := h
  obtain ⟨left, rfl⟩ : chars <+: front :=
    List.prefix_of_prefix_length_le ⟨rest,
      hsplit.symm⟩ (List.prefix_append front more) (by omega)
  rw [List.append_assoc, List.append_cancel_left_eq] at hsplit
  subst hsplit
  rw [List.append_assoc] at hfirst
  have hcloser : ∀ rule, a = .literal rule → rule.closer.chars ≠ [] :=
    fun rule hrule => (hrules.literal rule (hfirst.mem rule hrule)).2.1
  exact ⟨a, hrules.first_cut hseam hfirst htakes, chars, left, rfl,
    htakes.cut hcloser, hkind, hlength⟩

theorem Delimited.lexemeAt?_cut_none (hrules : rules.Delimited)
    (hseam : rules.Seamless) {before : Option Char} {front more : List Char}
    (h : rules.lexemeAt? rules.orderedLiterals before (front ++ more) = none) :
    rules.lexemeAt? rules.orderedLiterals before front = none := by
  rw [hrules.lexemeAt?_none_iff] at h ⊢
  intro a happlies
  exact h a (happlies.extend hrules hseam more)

-- ==================================================== looking behind

/-- What is read at a place is what would be read at the start of a text. -/
def ForgetsAt (rules : Rules) (before : Option Char) (cs : List Char) : Prop :=
  rules.lexemeAt? rules.orderedLiterals before cs
    = rules.lexemeAt? rules.orderedLiterals none cs

/-- Behind a comment or literal the text has ended, the line does, or the
character in front is no part of a word. -/
theorem Takes.seam (hrules : rules.Delimited) (hseam : rules.Seamless)
    {a : Alternative} (hmem : ∀ rule, a = .literal rule → rule ∈ rules.literals)
    {chars rest : List Char} {unclosed : Option Unclosed}
    (h : rules.Takes a chars rest unclosed) :
    rest = [] ∨ rest.head? = some '\n'
      ∨ chars.getLast?.any Text.isWordChar = false := by
  have hlast : ∀ {closer : Delimiter} {chars : List Char}, closer.chars ≠ [] →
      closer.chars <:+ chars → chars.getLast? = closer.last? := by
    rintro closer chars hne ⟨front, rfl⟩
    exact List.getLast?_append_of_ne_nil front hne
  cases h with
  | line _ stop => exact stop.imp_right Or.inl
  | block closes =>
      have hends :=
        closes.closer_suffix.trans
          (List.suffix_append rules.blockOpener.chars _)
      rw [hlast hrules.closer hends]
      exact Or.inr (Or.inr hseam.blockCloser)
  | openBlock => exact Or.inl rfl
  | @literal rule content _ _ =>
      have hrule := hmem rule rfl
      have hends : rule.closer.chars
          <:+ rule.opener.chars ++ (content ++ rule.closer.chars) :=
        (List.suffix_append _ _).trans (List.suffix_append _ _)
      rw [hlast (hrules.literal rule hrule).2.1 hends]
      exact Or.inr (Or.inr (hseam.closer rule hrule))
  | openLiteral => exact Or.inl rfl

/-- Behind a comment or literal the character in front makes no difference. -/
theorem Delimited.forgets_behind (hrules : rules.Delimited)
    (hseam : rules.Seamless) {before : Option Char} {cs : List Char}
    {lexeme : Lexeme}
    (h : rules.lexemeAt? rules.orderedLiterals before cs = some lexeme) :
    rules.ForgetsAt (cs.take lexeme.length).getLast?
      (cs.drop lexeme.length) := by
  obtain ⟨a, hfirst, -, -, htakes⟩ := hrules.lexemeAt?_takes h
  generalize cs.take lexeme.length = chars at htakes ⊢
  generalize cs.drop lexeme.length = rest at htakes ⊢
  have hnone : ∀ before : Option Char, rest = [] ∨ rest.head? = some '\n' →
      rules.lexemeAt? rules.orderedLiterals before rest = none := by
    intro before hrest
    rw [hrules.lexemeAt?_none_iff]
    intro b happlies
    rcases hrest with rfl | hhead
    · -- every opener has a character
      cases b with
      | line => exact hrules.line (List.prefix_nil.1 happlies)
      | block => exact hrules.opener (List.prefix_nil.1 happlies)
      | literal rule =>
          exact (hrules.literal rule happlies.1).1
            (List.prefix_nil.1 happlies.2.opener)
    · obtain ⟨tail, rfl⟩ := List.head?_eq_some_iff.1 hhead
      exact hseam.lineBreak (hrules.starts_with happlies)
  rcases htakes.seam hrules hseam hfirst.mem with hnil | hbreak | hword
  · rw [ForgetsAt, hnone _ (Or.inl hnil), hnone _ (Or.inl hnil)]
  · rw [ForgetsAt, hnone _ (Or.inr hbreak), hnone _ (Or.inr hbreak)]
  · exact lexemeAt?_before rules _ hword rest

/-- A character in front that holds back one alternative would hold back the
one that starts as well. -/
theorem FirstAt.forget (hrules : rules.Delimited) (hseam : rules.Seamless)
    {before : Option Char} {cs : List Char} {a : Alternative}
    (h : rules.FirstAt before cs a) :
    rules.FirstAt none cs a := by
  cases a with
  | line => exact h
  | block => exact h
  | literal rule =>
      obtain ⟨hline, hblock, ⟨hrule, happlies⟩, hlongest⟩ := h
      have happlies' : rule.AppliesAt none cs :=
        ⟨happlies.opener, fun _ c hc => (Option.not_mem_none c hc).elim,
          happlies.accepted⟩
      refine ⟨hline, hblock, ⟨hrule, happlies'⟩,
        hlongest.imp fun other hother h => ?_⟩
      refine ⟨h.opener, fun hprefixed => happlies.apart ?_, h.accepted⟩
      -- both openers stand here, so they share their first character
      rw [hseam.prefixed rule hrule other hother ?_]
      · exact hprefixed
      · rw [Delimiter.head?_eq (hrules.literal rule hrule).1 happlies.opener,
          Delimiter.head?_eq (hrules.literal other hother).1 h.opener]

/-- Where a comment or literal starts the character in front makes no
difference. -/
theorem Delimited.forgets_at_lexeme (hrules : rules.Delimited)
    (hseam : rules.Seamless) {before : Option Char} {cs : List Char}
    {lexeme : Lexeme}
    (h : rules.lexemeAt? rules.orderedLiterals before cs = some lexeme) :
    rules.ForgetsAt before cs := by
  obtain ⟨a, hfirst, hreads⟩ := hrules.first_of_lexemeAt? h
  rw [ForgetsAt, h, eq_comm, hrules.lexemeAt?_some_iff]
  exact ⟨a, hfirst.forget hrules hseam, hreads⟩

theorem ForgetsAt.spansFrom {before : Option Char} {cs : List Char}
    (h : rules.ForgetsAt before cs) (start : Nat) :
    rules.spansFrom rules.orderedLiterals start [] before cs
      = rules.spansFrom rules.orderedLiterals start [] none cs := by
  cases cs with
  | nil => rw [spansFrom_nil, spansFrom_nil]
  | cons c cs =>
      have hsame : rules.lexemeAt? rules.orderedLiterals before (c :: cs)
          = rules.lexemeAt? rules.orderedLiterals none (c :: cs) := h
      rw [Rules.spansFrom, Rules.spansFrom, hsame]

-- ================================================= the end of a span

/-- The offset is the start of the tiling or the end of one of its spans. -/
def IsCut (start : Nat) (spans : List Span) (offset : Nat) : Prop :=
  offset = start ∨ ∃ span ∈ spans, offset = span.stop

theorem IsCut.of_start {start : Nat} {spans : List Span} (h : Tiles start spans)
    {span : Span} (hmem : span ∈ spans) : IsCut start spans span.start := by
  induction spans generalizing start with
  | nil => cases hmem
  | cons first spans ih =>
      obtain ⟨hstart, -, htail⟩ := h
      rcases List.mem_cons.1 hmem with rfl | hmem
      · exact Or.inl hstart
      · rcases ih htail hmem with hfirst | ⟨other, hother, hstop⟩
        · exact Or.inr ⟨first, List.mem_cons_self, hfirst⟩
        · exact Or.inr ⟨other, List.mem_cons_of_mem first hother, hstop⟩

/-- No span ends inside the code that is being gathered. -/
theorem spansFrom_stop_ge (rules : Rules) (literals : List LiteralRule)
    (start : Nat) (gathered : List Char) (before : Option Char)
    (cs : List Char) :
    ∀ span ∈ rules.spansFrom literals start gathered before cs,
      start + gathered.length ≤ span.stop := by
  fun_induction Rules.spansFrom rules literals start gathered before cs with
  | case1 start gathered before =>
      intro span hspan
      rw [mem_codeSpan hspan, Span.stop, List.length_reverse]
  | case2 start gathered before c cs lexeme hlexeme chars offset ih =>
      intro span hspan
      rcases List.mem_append.1 hspan with hmem | hmem
      · rw [mem_codeSpan hmem, Span.stop, List.length_reverse]
      · rcases List.mem_cons.1 hmem with rfl | hmem
        · exact Nat.le_add_right _ _
        · have hle := ih span hmem
          rw [List.length_nil] at hle
          omega
  | case3 start gathered before c cs hlexeme ih =>
      intro span hspan
      have hle := ih span hspan
      rw [List.length_cons] at hle
      omega

/-- A text cannot be cut inside the code that is being gathered. -/
theorem IsCut.gathered_le {rules : Rules} {literals : List LiteralRule}
    {start p : Nat} {gathered : List Char} {before : Option Char}
    {cs : List Char}
    (h : IsCut start (rules.spansFrom literals start gathered before cs) p) :
    p = start ∨ start + gathered.length ≤ p := by
  rcases h with hstart | ⟨span, hspan, rfl⟩
  · exact Or.inl hstart
  · exact Or.inr (spansFrom_stop_ge rules literals start gathered before cs
      span hspan)

/-- A cut behind the start of a comment or literal is at its end or further
on. -/
theorem IsCut.behind {start p : Nat} {code : List Char} {span : Span}
    {spans : List Span}
    (h : IsCut start (codeSpan start code ++ span :: spans) p)
    (hlt : start + code.length < p) :
    IsCut span.stop spans p := by
  rcases h with rfl | ⟨other, hother, rfl⟩
  · omega
  · rcases List.mem_append.1 hother with hmem | hmem
    · rw [mem_codeSpan hmem, Span.stop] at hlt
      exact absurd hlt (Nat.lt_irrefl _)
    · rcases List.mem_cons.1 hmem with rfl | hmem
      · exact Or.inl rfl
      · exact Or.inr ⟨other, hmem, rfl⟩

/-- A text cut where the code gathered ends goes on as if it started there. -/
theorem Delimited.spansFrom_at_cut (hrules : rules.Delimited)
    (hseam : rules.Seamless) {start : Nat} {gathered : List Char}
    {before : Option Char} {rest : List Char}
    (hforgets : gathered = [] → rules.ForgetsAt before rest)
    (hcut : IsCut start
      (rules.spansFrom rules.orderedLiterals start gathered before rest)
      (start + gathered.length)) :
    rules.spansFrom rules.orderedLiterals start gathered before rest
      = codeSpan start gathered.reverse
        ++ rules.spansFrom rules.orderedLiterals (start + gathered.length) []
          none rest := by
  cases rest with
  | nil => rw [spansFrom_nil, spansFrom_nil]; exact (List.append_nil _).symm
  | cons c cs =>
      cases h : rules.lexemeAt? rules.orderedLiterals before (c :: cs) with
      | some lexeme =>
          have hforgets : rules.lexemeAt? rules.orderedLiterals before (c :: cs)
              = rules.lexemeAt? rules.orderedLiterals none (c :: cs) :=
            hrules.forgets_at_lexeme hseam h
          rw [spansFrom_lexeme h, spansFrom_lexeme (hforgets.symm.trans h)]
          rfl
      | none =>
          -- code that goes on over the cut has not been started yet
          cases gathered with
          | nil => exact (hforgets rfl).spansFrom start
          | cons d gathered =>
              rw [spansFrom_code h] at hcut
              have hge := hcut.gathered_le
              simp only [List.length_cons] at hge
              omega

/-- No comment or literal in front of a cut reaches over it, and each is the
same without the text behind the cut. -/
theorem Delimited.lexemeAt?_before_cut (hrules : rules.Delimited)
    (hseam : rules.Seamless) {start : Nat} {gathered : List Char}
    {before : Option Char} {c : Char} {front rest : List Char}
    (hcut : IsCut start
      (rules.spansFrom rules.orderedLiterals start gathered before
        (c :: (front ++ rest)))
      (start + gathered.length + (c :: front).length)) :
    rules.lexemeAt? rules.orderedLiterals before (c :: (front ++ rest))
        = rules.lexemeAt? rules.orderedLiterals before (c :: front)
      ∧ ∀ lexeme, rules.lexemeAt? rules.orderedLiterals before (c :: front)
        = some lexeme →
          lexeme.length ≤ (c :: front).length := by
  cases h : rules.lexemeAt? rules.orderedLiterals before
    (c :: (front ++ rest)) with
  | none =>
      rw [← List.cons_append] at h
      rw [hrules.lexemeAt?_cut_none hseam h]
      exact ⟨rfl, fun lexeme hlexeme => by cases hlexeme⟩
  | some lexeme =>
      obtain ⟨-, -, -, hfits, -⟩ := hrules.lexemeAt?_takes h
      rw [spansFrom_lexeme h] at hcut
      have hbehind :=
        hcut.behind (by rw [List.length_reverse, List.length_cons]; omega)
      have hge := hbehind.gathered_le
      simp only [Span.stop, List.length_take_of_le hfits,
        List.length_nil] at hge
      have hle : lexeme.length ≤ (c :: front).length := by omega
      rw [← List.cons_append] at h
      rw [hrules.lexemeAt?_cut hseam h hle]
      refine ⟨rfl, fun other hother => ?_⟩
      cases hother
      exact hle

/-- Reading stops and starts again at the end of a span. The induction is on
the text in front of the cut, and carries that the character in front is
forgotten wherever no code is gathered, for there a span has just ended. -/
theorem Delimited.spansFrom_resumed (hrules : rules.Delimited)
    (hseam : rules.Seamless) (rest : List Char) (start : Nat)
    (gathered : List Char) (before : Option Char) (front : List Char) :
    (gathered = [] → rules.ForgetsAt before (front ++ rest)) →
    IsCut start (rules.spansFrom rules.orderedLiterals start gathered before
      (front ++ rest)) (start + gathered.length + front.length) →
    rules.spansFrom rules.orderedLiterals start gathered before (front ++ rest)
      = rules.spansFrom rules.orderedLiterals start gathered before front
        ++ rules.spansFrom rules.orderedLiterals
          (start + gathered.length + front.length) [] none rest := by
  fun_induction Rules.spansFrom rules rules.orderedLiterals start gathered
    before front with
  | case1 start gathered before => exact hrules.spansFrom_at_cut hseam
  | case2 start gathered before c front lexeme hlexeme chars offset ih =>
      intro _ hcut
      rw [List.cons_append] at hcut
      obtain ⟨hsame, hwithin⟩ := hrules.lexemeAt?_before_cut hseam hcut
      have hle := hwithin lexeme hlexeme
      have hlength : chars.length = lexeme.length := List.length_take_of_le hle
      have hend : offset + chars.length + ([] : List Char).length
          + ((c :: front).drop lexeme.length).length
            = offset + (c :: front).length := by
        rw [List.length_nil, List.length_drop]
        omega
      have hforgets := hrules.forgets_behind hseam (hsame.trans hlexeme)
      rw [spansFrom_lexeme (hsame.trans hlexeme)] at hcut
      have hbehind :=
        hcut.behind (by rw [List.length_reverse, List.length_cons]; omega)
      rw [← List.cons_append, List.take_append_of_le_length hle,
        List.drop_append_of_le_length hle] at hforgets hbehind
      have hrest := ih (fun _ => hforgets) (by rw [hend]; exact hbehind)
      rw [hend] at hrest
      rw [List.cons_append, spansFrom_lexeme (hsame.trans hlexeme),
        ← List.cons_append, List.take_append_of_le_length hle,
        List.drop_append_of_le_length hle, hrest, List.append_assoc,
        List.cons_append]
  | case3 start gathered before c front hlexeme ih =>
      intro _ hcut
      rw [List.cons_append] at hcut
      have hnone := (hrules.lexemeAt?_before_cut hseam hcut).1.trans hlexeme
      have hend : start + (c :: gathered).length + front.length
          = start + gathered.length + (c :: front).length := by
        rw [List.length_cons, List.length_cons]
        omega
      rw [spansFrom_code hnone] at hcut
      have hrest := ih (fun hnil => absurd hnil (List.cons_ne_nil c gathered))
        (by rw [hend]; exact hcut)
      rw [hend] at hrest
      rw [List.cons_append, spansFrom_code hnone, hrest]

theorem Delimited.spans_resumed (hrules : rules.Delimited)
    (hseam : rules.Seamless) {text : List Char} {p : Nat}
    (hle : p ≤ text.length) (hcut : IsCut 0 (rules.spans text) p) :
    rules.spans text
      = rules.spans (text.take p)
        ++ (rules.spans (text.drop p)).map (·.moved p) := by
  have hlength : 0 + ([] : List Char).length + (text.take p).length
      = 0 + p := by
    rw [List.length_nil, List.length_take_of_le hle]
  have hread :=
    hrules.spansFrom_resumed hseam (text.drop p) 0 [] none (text.take p)
    (fun _ => rfl) (by
      rw [hlength, Nat.zero_add, List.take_append_drop]; exact hcut)
  rw [hlength, spansFrom_moved, List.take_append_drop] at hread
  exact hread

end Rules

/-- Spans further on have their diagnostics further on. -/
theorem Span.diagnostics_moved (lines lines' : Text.Lines) (k : Nat)
    (spans : List Span) :
    (Span.diagnostics lines (spans.map (·.moved k))).map
      (fun d => (d.problem, d.offset))
      = (Span.diagnostics lines' spans).map fun d =>
        (d.problem, d.offset + k) := by
  unfold Span.diagnostics
  rw [List.filterMap_map, List.map_filterMap, List.map_filterMap]
  congr 1
  funext span
  rw [Function.comp_apply, Span.moved]
  cases span.unclosed with
  | none => rfl
  | some what => rfl

/-- In every dialect a text can be cut where a span starts or ends: its spans
are those of the text in front and those of the text behind, further on, and
unless nothing is behind, all diagnostics are those of the text behind. -/
theorem spans_resumed_at_boundary (dialect : Dialect) (text : List Char)
    (p : Nat) (hp : ∃ span ∈ dialect.rules.spans text,
      p = span.start ∨ p = span.stop) :
    dialect.rules.spans text = dialect.rules.spans (text.take p)
        ++ (dialect.rules.spans (text.drop p)).map (·.moved p)
      ∧ (p < text.length →
        (Span.diagnostics (.ofText text) (dialect.rules.spans text)).map
            (fun d => (d.problem, d.offset))
          = (Span.diagnostics (.ofText (text.drop p))
            (dialect.rules.spans (text.drop p))).map
            fun d => (d.problem, d.offset + p)) := by
  have hrules := dialect.delimited
  have htiles := spans_tiles dialect.rules text
  have hcut : Rules.IsCut 0 (dialect.rules.spans text) p ∧ p ≤ text.length := by
    obtain ⟨span, hspan, hp⟩ := hp
    obtain ⟨-, hlt, hstop⟩ := htiles.mem hspan
    rw [spans_end] at hstop
    rcases hp with rfl | rfl
    · exact ⟨.of_start htiles hspan, by omega⟩
    · exact ⟨Or.inr ⟨span, hspan, rfl⟩, hstop⟩
  have hspans := hrules.spans_resumed dialect.seamless hcut.2 hcut.1
  refine ⟨hspans, fun hlt => ?_⟩
  -- a span in front is a span of the whole text that ends before the text does
  have hclosed : ∀ span ∈ dialect.rules.spans (text.take p),
      span.unclosed = none := by
    intro span hspan
    have hstop := ((spans_tiles dialect.rules (text.take p)).mem hspan).2.2
    rw [spans_end, List.length_take] at hstop
    have hmakes :=
      hrules.spans_made text span
        (by rw [hspans]; exact List.mem_append_left _ hspan)
    cases hunclosed : span.unclosed with
    | none => rfl
    | some what =>
        have hpast := hmakes.unclosed_stop hunclosed
        omega
  rw [hspans, Span.diagnostics_append, Span.diagnostics_eq_nil hclosed,
    List.nil_append, Span.diagnostics_moved _ (.ofText (text.drop p))]

/-- A string that follows a word directly, and an open comment. -/
def stringBehindWord : List Char := "xr\"/*\"/*".toList

/-- A string that follows a word directly, in a text that ends inside a
comment: reading starts again at the string and finds the same. -/
theorem spans_resumed_behind_word :
    (∃ span ∈ Dialect.rust.rules.spans stringBehindWord,
      2 = span.start ∨ 2 = span.stop)
      ∧ Dialect.rust.rules.spans stringBehindWord
        = Dialect.rust.rules.spans "xr".toList
          ++ (Dialect.rust.rules.spans "\"/*\"/*".toList).map (·.moved 2)
      ∧ (Span.diagnostics (.ofText stringBehindWord)
          (Dialect.rust.rules.spans stringBehindWord)).map
            (fun d => (d.problem, d.offset))
        = [(.unclosed .comment, 6)] := by
  have hspans : Dialect.rust.rules.spans stringBehindWord
      = [{ kind := .code, start := 0, chars := "xr".toList },
        { kind := .literal .string, start := 2, chars := "\"/*\"".toList },
        { kind := .comment .block, start := 6, chars := "/*".toList,
          unclosed := some .comment }] := by
    rw [Dialect.spans_eq]
    decide +kernel
  have hbehind : Span.diagnostics (.ofText "\"/*\"/*".toList)
        (Dialect.rust.rules.spans "\"/*\"/*".toList)
      = [⟨.unclosed .comment, 4, 1⟩] := by
    rw [Dialect.spans_eq]
    decide +kernel
  have hp : ∃ span ∈ Dialect.rust.rules.spans stringBehindWord,
      2 = span.start ∨ 2 = span.stop := by
    rw [hspans]
    exact ⟨_, List.mem_cons_self, Or.inr rfl⟩
  obtain ⟨hresumed, hdiagnostics⟩ :=
    spans_resumed_at_boundary .rust stringBehindWord 2 hp
  refine ⟨hp, hresumed, ?_⟩
  rw [hdiagnostics (by decide)]
  exact congrArg (List.map fun d : Diagnostic => (d.problem, d.offset + 2))
    hbehind

end Marginalia
