/-
Nothing is missed and nothing invented.

# Jumping

Most characters of a text start no delimiter, so a reader may jump to the
next one that does and look only there. `spansByJumps` reads that way. It
finds the same spans (`spansByJumps_eq`), since at a character that starts
no opener nothing can start; an opener that is declined hides nothing
either, because reading goes on with the very next character.

# What the spans say

`Faithful` is what the spans of a text say of it: where they show code there
is no start of a comment or literal at any place, a comment or literal opens
with the first alternative that may start there, a line comment goes as far
as its line, and a literal without a bound ends with its first closer that
is neither escaped nor doubled. All of it is read off `Makes`.
-/
import Marginalia.Proofs.Span.Described

namespace Marginalia

-- =========================================================== jumping

/-- The characters that an opener starts with. -/
def Rules.starters (rules : Rules) : List Char :=
  (rules.lineComment :: rules.blockOpener
    :: rules.literals.map (·.opener)).filterMap (·.chars.head?)

/-- The spans of the rest of a text, with a look only at characters that may
start something; what stands in front of the next one is code. -/
def Rules.jumpingFrom (rules : Rules) (literals : List LiteralRule)
    (start : Nat) (gathered : List Char) (before : Option Char)
    (cs : List Char) : List Span :=
  let passed := cs.takeWhile (!rules.starters.contains ·)
  let code := passed.reverse ++ gathered
  match _hrest : cs.dropWhile (!rules.starters.contains ·) with
  | [] => codeSpan start code.reverse
  | c :: rest =>
    match rules.lexemeAt? literals (passed.getLast?.or before) (c :: rest) with
    | some lexeme =>
      let chars := (c :: rest).take lexeme.length
      let offset := start + code.length
      codeSpan start code.reverse
        ++ { kind := lexeme.kind, start := offset, chars,
             unclosed := lexeme.unclosed }
        :: rules.jumpingFrom literals (offset + chars.length) [] chars.getLast?
            ((c :: rest).drop lexeme.length)
    | none => rules.jumpingFrom literals start (c :: code) (some c) rest
termination_by cs.length
decreasing_by
  all_goals
    have hle := List.length_dropWhile_le (!rules.starters.contains ·) cs
    rw [_hrest, List.length_cons] at hle
  · have hpos := lexeme.length_pos
    simp only [List.length_drop, List.length_cons]
    omega
  · omega

/-- The spans of a text, found by jumps. -/
def Rules.spansByJumps (rules : Rules) (text : List Char) : List Span :=
  rules.jumpingFrom rules.orderedLiterals 0 [] none text

namespace Rules

variable {rules : Rules}

/-- Whatever may start at a place starts with one of the starters. -/
theorem Delimited.starts_with (hrules : rules.Delimited) {before : Option Char}
    {c : Char} {cs : List Char} {a : Alternative}
    (h : rules.AppliesAt before (c :: cs) a) :
    c ∈ rules.starters := by
  unfold starters
  rw [List.mem_filterMap]
  cases a with
  | line => exact ⟨rules.lineComment, by simp, Delimiter.head?_eq hrules.line h⟩
  | block =>
      exact ⟨rules.blockOpener, by simp, Delimiter.head?_eq hrules.opener h⟩
  | literal rule =>
      refine ⟨rule.opener, ?_,
        Delimiter.head?_eq (hrules.literal rule h.1).1 h.2.opener⟩
      simp only [List.mem_cons, List.mem_map]
      exact Or.inr (Or.inr ⟨rule, h.1, rfl⟩)

/-- Characters that start nothing join the code. -/
theorem Delimited.spansFrom_passed (hrules : rules.Delimited) (start : Nat)
    (rest : List Char) (passed : List Char) :
    ∀ (gathered : List Char) (before : Option Char),
      (∀ c ∈ passed, c ∉ rules.starters) →
      rules.spansFrom rules.orderedLiterals start gathered before
        (passed ++ rest)
        = rules.spansFrom rules.orderedLiterals start
          (passed.reverse ++ gathered) (passed.getLast?.or before) rest := by
  induction passed with
  | nil =>
      intro gathered before _
      rfl
  | cons c passed ih =>
      intro gathered before hpassed
      have hnone : rules.lexemeAt? rules.orderedLiterals before
          (c :: passed ++ rest) = none := by
        rw [hrules.lexemeAt?_none_iff]
        intro a happlies
        exact hpassed c List.mem_cons_self (hrules.starts_with happlies)
      rw [List.cons_append] at hnone
      rw [List.cons_append, spansFrom_code hnone,
        ih (c :: gathered) (some c) fun d hd =>
          hpassed d (List.mem_cons_of_mem c hd),
        List.reverse_cons, List.append_assoc, List.singleton_append,
        List.getLast?_cons]
      cases passed.getLast? with
      | none => rfl
      | some d => rfl

/-- Jumping from one possible start to the next gives what reading every
character gives, as nothing starts in between. -/
theorem Delimited.jumpingFrom_eq (hrules : rules.Delimited) (start : Nat)
    (gathered : List Char) (before : Option Char) (cs : List Char) :
    rules.jumpingFrom rules.orderedLiterals start gathered before cs
      = rules.spansFrom rules.orderedLiterals start gathered before cs := by
  -- reading on behind what is passed, whichever of the three ways it goes on
  have hpassed : ∀ (start : Nat) (gathered : List Char) (before : Option Char)
      (cs : List Char),
      rules.spansFrom rules.orderedLiterals start gathered before cs
        = rules.spansFrom rules.orderedLiterals start
          ((cs.takeWhile (!rules.starters.contains ·)).reverse ++ gathered)
          ((cs.takeWhile (!rules.starters.contains ·)).getLast?.or before)
          (cs.dropWhile (!rules.starters.contains ·)) := by
    intro start gathered before cs
    have hsplit : cs.takeWhile (!rules.starters.contains ·)
        ++ cs.dropWhile (!rules.starters.contains ·) = cs :=
          List.takeWhile_append_dropWhile
    rw [← hrules.spansFrom_passed start _ _ gathered before fun c hc => ?_,
      hsplit]
    simpa using List.mem_takeWhile_imp hc
  fun_induction Rules.jumpingFrom rules rules.orderedLiterals start gathered
    before cs with
  | case1 start gathered before cs passed code hrest =>
      rw [hpassed, hrest, spansFrom_nil]
  | case2 start gathered before cs passed code c rest hrest lexeme hlexeme chars
    offset ih =>
      rw [hpassed, hrest, spansFrom_lexeme hlexeme, ih]
  | case3 start gathered before cs passed code c rest hrest hlexeme ih =>
      rw [hpassed, hrest, spansFrom_code hlexeme]
      exact ih

theorem Delimited.spansByJumps_eq (hrules : rules.Delimited)
    (text : List Char) :
    rules.spansByJumps text = rules.spans text :=
  hrules.jumpingFrom_eq 0 [] none text

-- ================================================ what the spans say

/-- A comment or literal holds its opener. -/
theorem Delimited.takes_opener (hrules : rules.Delimited) {before : Option Char}
    {a : Alternative} {chars rest : List Char} {unclosed : Option Unclosed}
    (h : rules.Takes a chars rest unclosed)
    (happlies : rules.AppliesAt before (chars ++ rest) a) :
    (rules.openerOf a).chars <+: chars := by
  cases h with
  | line inside stop =>
      rcases List.prefix_or_prefix_of_prefix happlies
        (List.prefix_append chars rest) with hprefix | ⟨more, hmore⟩
      · exact hprefix
      · -- an opener that goes on behind the comment would hold its line feed
        have hstarts : rules.lineComment.chars <+: chars ++ rest := happlies
        rw [← hmore, List.prefix_append_right_inj] at hstarts
        cases more with
        | nil =>
            rw [List.append_nil] at hmore
            rw [hmore]
            exact List.prefix_refl _
        | cons c more =>
            obtain ⟨after, rfl⟩ := hstarts
            rcases stop with hnil | hhead
            · cases hnil
            · rw [List.cons_append, List.head?_cons] at hhead
              injection hhead with hc
              refine absurd ?_ hrules.lineBreak
              rw [← hmore, hc]
              simp
  | block => exact List.prefix_append _ _
  | openBlock => exact List.prefix_append _ _
  | literal => exact List.prefix_append _ _
  | openLiteral => exact List.prefix_append _ _

end Rules

/-- What a span of a text says of it. -/
structure Rules.Faithful (rules : Rules) (text : List Char) (span : Span) :
    Prop where
  /-- No comment or literal could start at a place of the code. -/
  code : span.kind = .code → ∀ offset,
    span.start ≤ offset → offset < span.stop →
    ∀ a, ¬ rules.StartsAt text offset a
  /-- A comment or literal opens with the first alternative at its start. -/
  opener : span.kind ≠ .code → ∃ a,
    rules.FirstStart text span.start a ∧ span.kind = a.kind
    ∧ (rules.openerOf a).chars <+: span.chars
  /-- A line comment goes as far as its line. -/
  line : span.kind = .comment .line → '\n' ∉ span.chars
    ∧ (span.stop = text.length ∨ (text.drop span.stop).head? = some '\n')
  /-- A literal without a bound ends with the first closer that counts, or with
  the text. -/
  literal : ∀ rule, rules.FirstStart text span.start (.literal rule) →
    rule.maxLength = none →
    (∃ content, rule.Content
      (text.drop (span.start + rule.opener.length)) content
      ∧ span.chars = rule.opener.chars ++ (content ++ rule.closer.chars))
    ∨ (∀ content, ¬ rule.Content (text.drop (span.start + rule.opener.length))
      content)
      ∧ span.stop = text.length

namespace Rules

variable {rules : Rules}

/-- What is made by the grammars is faithful to the text, if it is a part
of it. -/
theorem Delimited.makes_faithful (hrules : rules.Delimited) {text : List Char}
    {span : Span} (hne : span.start < span.stop) (hle : span.stop ≤ text.length)
    (hslice : text.drop span.start = span.chars ++ text.drop span.stop)
    (h : rules.Makes text span) : rules.Faithful text span := by
  have hend : text.drop span.stop = [] → span.stop = text.length := fun hnil =>
    Nat.le_antisymm hle (List.drop_eq_nil_iff.1 hnil)
  cases h with
  | code kind closed nothing =>
      refine ⟨fun _ => nothing, fun hcode => absurd kind hcode,
        fun hline => ?_, ?_⟩
      · rw [kind] at hline
        cases hline
      · intro rule hfirst
        exact absurd hfirst.applies (nothing span.start (Nat.le_refl _) hne _)
  | lexeme a kind first takes =>
      have happlies : rules.AppliesAt (Text.charBefore text span.start)
          (span.chars ++ text.drop span.stop) a := by
        rw [← hslice]
        exact first.applies
      refine ⟨fun hcode => ?_,
        fun _ => ⟨a, first, kind, hrules.takes_opener takes happlies⟩,
        fun hline => ?_, fun rule hrule hmax => ?_⟩
      · rw [hcode] at kind
        rcases hrules.kind_cases first.applies with rfl | rfl | ⟨rule, _,
          rfl, hrule⟩
        · cases kind
        · cases kind
        · rw [Alternative.kind, hrule] at kind
          cases kind
      · rw [hline] at kind
        rcases hrules.kind_cases first.applies with rfl | rfl | ⟨rule, _,
          rfl, hrule⟩
        · generalize span.unclosed = unclosed at takes
          cases takes with
          | line inside stop => exact ⟨inside, stop.imp_left hend⟩
        · cases kind
        · rw [Alternative.kind, hrule] at kind
          cases kind
      · obtain rfl := first.unique hrule
        generalize hchars : span.chars = chars at takes hslice
        generalize hrest : text.drop span.stop = rest at takes hslice
        generalize span.unclosed = unclosed at takes
        rw [← List.drop_drop, hslice]
        cases takes with
        | @literal _ content _ hcontent =>
            refine Or.inl ⟨content, ?_, rfl⟩
            rw [Delimiter.length, List.append_assoc, List.drop_left,
              List.append_assoc]
            exact hcontent
        | openLiteral _ hopen =>
            refine Or.inr ⟨?_, hend hrest⟩
            rw [Delimiter.length, List.append_nil, List.drop_left]
            exact hopen

end Rules

/-- In every dialect the spans of a text are those that a reader finds who
looks only at characters that may start something, and each says what is
there. -/
theorem spans_miss_and_invent_nothing (dialect : Dialect) (text : List Char) :
    dialect.rules.spansByJumps text = dialect.rules.spans text
      ∧ ∀ span ∈ dialect.rules.spans text,
        dialect.rules.Faithful text span := by
  have hrules := dialect.delimited
  refine ⟨hrules.spansByJumps_eq text, fun span hspan => ?_⟩
  obtain ⟨-, hne, hle⟩ := (spans_tiles dialect.rules text).mem hspan
  rw [spans_end] at hle
  exact hrules.makes_faithful hne hle (spans_drop hspan)
    (hrules.spans_made text span hspan)

/-- A lifetime, and a string behind what looks like its opener. -/
def stringBehindDeclined : List Char := "&'a xr\"//\"".toList

/-- A lifetime and a prefix that continues a word are declined, and the string
behind them hides what looks like a comment. -/
theorem spans_miss_nothing_behind_declined :
    ∃ code string, Dialect.rust.rules.spans stringBehindDeclined
      = [code, string]
      ∧ code.chars = "&'a xr".toList ∧ string.chars = "\"//\"".toList
      ∧ Dialect.rust.rules.Faithful stringBehindDeclined code
      ∧ Dialect.rust.rules.Faithful stringBehindDeclined string := by
  have hspans : Dialect.rust.rules.spans stringBehindDeclined
      = [{ kind := .code, start := 0, chars := "&'a xr".toList },
        { kind := .literal .string, start := 6,
          chars := "\"//\"".toList }] := by
    rw [Dialect.spans_eq]
    decide +kernel
  have hfaithful := (spans_miss_and_invent_nothing .rust stringBehindDeclined).2
  rw [hspans] at hfaithful
  exact ⟨_, _, hspans, rfl, rfl, hfaithful _ (by simp), hfaithful _ (by simp)⟩

end Marginalia
