/-
Spans of two texts with an empty line between them.

A comment or literal of the first text that is closed ends where it did,
whatever follows, and an opener that was none is still none: delimiters hold
no line feed, and a bounded literal cannot go past one, not even past the
one it escapes. So the first text is cut as before up to its last stretch of
code, which goes on through the empty line into the first stretch of code of
the second text; from there on the second text is cut as before, further on
(`spans_joined`).
-/
import Marginalia.Proofs.Span.Plain

namespace Marginalia

theorem Text.isWordChar_newline : Text.isWordChar '\n' = false := by
  decide +kernel

-- ======================================================== delimiters

/-- A list without white space stands in front of a text or not, whatever
follows the next line feed. -/
theorem isPrefixOf_joined {p : List Char} (hp : ∀ c ∈ p, Text.isBlank c = false)
    (rest : List Char) :
    ∀ cs, p.isPrefixOf (cs ++ '\n' :: rest) = p.isPrefixOf cs := by
  induction p with
  | nil =>
      intro cs
      cases cs <;> rfl
  | cons x p ih =>
      intro cs
      have hx : (x == '\n') = false := by
        rw [beq_eq_false_iff_ne]
        intro hx
        have hblank := hp x List.mem_cons_self
        rw [hx] at hblank
        exact absurd hblank (by decide)
      cases cs with
      | nil => simp [List.isPrefixOf, hx]
      | cons c cs =>
          rw [List.cons_append, List.isPrefixOf_cons_cons,
            List.isPrefixOf_cons_cons,
            ih fun d hd => hp d (List.mem_cons_of_mem x hd)]

/-- What a line feed ends, ends in front of one, whatever follows. -/
theorem takeWhile_joined {p : Char → Bool} (hp : p '\n' = false)
    (rest cs : List Char) :
    (cs ++ '\n' :: rest).takeWhile p = cs.takeWhile p := by
  induction cs with
  | nil => rw [List.nil_append, List.takeWhile_cons, hp]; rfl
  | cons c cs ih =>
      rw [List.cons_append, List.takeWhile_cons, List.takeWhile_cons, ih]

/-- A delimiter without line feeds starts at a place just if it starts there
when a line feed and more follow. -/
theorem Delimiter.startsAt_joined {d : Delimiter} (hd : d.isPlain = true)
    (rest cs : List Char) : d.startsAt (cs ++ '\n' :: rest) = d.startsAt cs :=
  isPrefixOf_joined (Delimiter.isPlain_iff.1 hd).2 rest cs

/-- So it opens something there in both texts or in neither. -/
theorem Delimiter.opensAt_joined {d : Delimiter} (hd : d.isPlain = true)
    (rest cs : List Char) : d.opensAt (cs ++ '\n' :: rest) = d.opensAt cs := by
  rw [opensAt, opensAt, Delimiter.startsAt_joined hd]

theorem Delimiter.length_le {d : Delimiter} {cs : List Char}
    (h : d.startsAt cs = true) :
    d.length ≤ cs.length :=
  (List.isPrefixOf_iff_prefix.1 h).length_le

theorem Delimiter.startsAt_of_opensAt {d : Delimiter} {cs : List Char}
    (h : d.opensAt cs = true) : d.startsAt cs = true := by
  rw [opensAt, Bool.and_eq_true] at h
  exact h.2

theorem Delimiter.length_pos {d : Delimiter} (hd : d.isPlain = true) :
    0 < d.length :=
  List.length_pos_iff.2 (Delimiter.isPlain_iff.1 hd).1

/-- A delimiter that stands in front is taken off, whatever follows. -/
theorem Delimiter.drop_joined {d : Delimiter} (hd : d.isPlain = true)
    (rest : List Char) {c : Char} {cs : List Char}
    (hstarts : d.startsAt (c :: cs) = true) :
    (cs ++ '\n' :: rest).drop (d.length - 1)
      = cs.drop (d.length - 1) ++ '\n' :: rest
      ∧ (cs.drop (d.length - 1)).length + d.length = (c :: cs).length := by
  have hle := Delimiter.length_le hstarts
  have hpos := Delimiter.length_pos hd
  rw [List.length_cons] at hle
  refine ⟨List.drop_append_of_le_length (by omega), ?_⟩
  rw [List.length_drop, List.length_cons]
  omega

-- ========================================================== comments

/-- A delimiter that is found is found at the same place when more follows. -/
theorem Delimiter.find?_joined {d : Delimiter} (hd : d.isPlain = true)
    (rest : List Char) {cs : List Char} : ∀ {n : Nat}, d.find? cs = some n →
      d.find? (cs ++ '\n' :: rest) = some n ∧ n + d.length ≤ cs.length := by
  induction cs with
  | nil =>
      intro n h
      have hne : d.isEmpty = false := by
        have hchars := (Delimiter.isPlain_iff.1 hd).1
        cases hc : d.chars with
        | nil => exact absurd hc hchars
        | cons x xs => simp [isEmpty, hc]
      simp [find?, hne] at h
  | cons c cs ih =>
      intro n h
      rw [find?] at h
      rw [List.cons_append, find?, ← List.cons_append,
        Delimiter.startsAt_joined hd]
      split at h
      · next hstarts =>
        injection h with h
        subst h
        refine ⟨if_pos hstarts, ?_⟩
        rw [Nat.zero_add]
        exact Delimiter.length_le hstarts
      · next hstarts =>
        obtain ⟨n', hn', rfl⟩ := Option.map_eq_some_iff.1 h
        obtain ⟨hfind, hle⟩ := ih hn'
        refine ⟨?_, ?_⟩
        · rw [if_neg hstarts, hfind]
          rfl
        · rw [List.length_cons]
          omega

/-- A nested block comment that is closed is closed there, whatever follows. -/
theorem Rules.nestedLength?_joined {rules : Rules}
    (hcloser : rules.blockCloser.isPlain = true)
    (hopener : rules.blockOpener.isPlain = true) (rest : List Char)
    (depth : Nat) (cs : List Char) :
    ∀ {n : Nat}, rules.nestedLength? depth cs = some n →
      rules.nestedLength? depth (cs ++ '\n' :: rest) = some n
        ∧ n ≤ cs.length := by
  fun_induction Rules.nestedLength? rules depth cs with
  | case1 depth =>
      intro n h
      cases h
  | case2 c cs hcloses =>
      intro n h
      injection h with h
      subst h
      refine ⟨?_, Delimiter.length_le hcloses⟩
      rw [List.cons_append, Rules.nestedLength?, ← List.cons_append,
        Delimiter.startsAt_joined hcloser, if_pos hcloses]
  | case3 c cs hcloses d ih =>
      intro n h
      obtain ⟨n', hn', rfl⟩ := Option.map_eq_some_iff.1 h
      obtain ⟨hnested, hle⟩ := ih hn'
      obtain ⟨hrest, hlength⟩ := Delimiter.drop_joined hcloser rest hcloses
      refine ⟨?_, by omega⟩
      rw [List.cons_append, Rules.nestedLength?, ← List.cons_append,
        Delimiter.startsAt_joined hcloser, if_pos hcloses]
      simp only [hrest, hnested, Option.map_some]
  | case4 depth c cs hcloses hopens ih =>
      intro n h
      obtain ⟨n', hn', rfl⟩ := Option.map_eq_some_iff.1 h
      obtain ⟨hnested, hle⟩ := ih hn'
      obtain ⟨hrest, hlength⟩ :=
        Delimiter.drop_joined hopener rest
          (Delimiter.startsAt_of_opensAt hopens)
      refine ⟨?_, by omega⟩
      rw [List.cons_append, Rules.nestedLength?.eq_def]
      simp only
      rw [← List.cons_append, Delimiter.startsAt_joined hcloser, if_neg hcloses,
        Delimiter.opensAt_joined hopener, if_pos hopens, hrest, hnested,
        Option.map_some]
  | case5 depth c cs hcloses hopens ih =>
      intro n h
      obtain ⟨n', hn', rfl⟩ := Option.map_eq_some_iff.1 h
      obtain ⟨hnested, hle⟩ := ih hn'
      refine ⟨?_, by rw [List.length_cons]; omega⟩
      rw [List.cons_append, Rules.nestedLength?.eq_def]
      simp only
      rw [← List.cons_append, Delimiter.startsAt_joined hcloser, if_neg hcloses,
        Delimiter.opensAt_joined hopener, if_neg hopens, hnested,
        Option.map_some]

/-- A block comment that is closed is closed at the same place when more
follows. -/
theorem Rules.blockBodyLength?_joined {rules : Rules}
    (hcloser : rules.blockCloser.isPlain = true)
    (hopener : rules.blockOpener.isPlain = true) (rest : List Char)
    {body : List Char} {n : Nat} (h : rules.blockBodyLength? body = some n) :
    rules.blockBodyLength? (body ++ '\n' :: rest) = some n
      ∧ n ≤ body.length := by
  unfold Rules.blockBodyLength? at *
  split
  · next hnested =>
    rw [if_pos hnested] at h
    exact Rules.nestedLength?_joined hcloser hopener rest 0 body h
  · next hnested =>
    rw [if_neg hnested] at h
    obtain ⟨n', hn', rfl⟩ := Option.map_eq_some_iff.1 h
    obtain ⟨hfind, hle⟩ := Delimiter.find?_joined hcloser rest hn'
    rw [hfind]
    exact ⟨rfl, hle⟩

/-- What a closed lexeme of a text says of the text with more behind it. -/
def Lexeme.Stays (rest cs : List Char) (find : List Char → Option Lexeme) :
    Prop :=
  (∀ lexeme, find cs = some lexeme → lexeme.unclosed = none) →
    find (cs ++ '\n' :: '\n' :: rest) = find cs
      ∧ ∀ lexeme, find cs = some lexeme → lexeme.length ≤ cs.length

/-- A line comment ends at the line feed that follows the text, if at none
before. -/
theorem Rules.lineLexeme?_stays (rest cs : List Char) :
    Lexeme.Stays rest cs Rules.lineLexeme? := by
  intro _
  refine ⟨?_, fun lexeme hlexeme => ?_⟩
  · rw [Rules.lineLexeme?, Rules.lineLexeme?, takeWhile_joined (by decide)]
  · rw [(Lexeme.ofLength?_iff.1 hlexeme).2.1]
    exact (List.takeWhile_prefix _).length_le

/-- A block comment that is closed stays as it is. -/
theorem Rules.blockLexeme?_stays {rules : Rules}
    (hcloser : rules.blockCloser.isPlain = true)
    (hopener : rules.blockOpener.isPlain = true) (rest : List Char)
    {cs : List Char} (hopens : rules.blockOpener.opensAt cs = true) :
    Lexeme.Stays rest cs rules.blockLexeme? := by
  intro hclosed
  have hle := Delimiter.length_le (Delimiter.startsAt_of_opensAt hopens)
  have hbody : (cs ++ '\n' :: '\n' :: rest).drop rules.blockOpener.length
      = cs.drop rules.blockOpener.length ++ '\n' :: '\n' :: rest :=
    List.drop_append_of_le_length hle
  unfold Rules.blockLexeme? at *
  simp only [hbody] at *
  cases hlength : rules.blockBodyLength? (cs.drop rules.blockOpener.length) with
  | some n =>
      obtain ⟨hjoined, hn⟩ :=
        Rules.blockBodyLength?_joined hcloser hopener ('\n' :: rest) hlength
      simp only [hjoined]
      refine ⟨trivial, fun lexeme hlexeme => ?_⟩
      rw [(Lexeme.ofLength?_iff.1 hlexeme).2.1]
      rw [List.length_drop] at hn
      omega
  | none =>
      -- a comment without a closer is no closed one
      have hpos := Delimiter.length_pos hopener
      simp only [hlength, Lexeme.ofLength?] at hclosed
      rw [dif_pos (by omega)] at hclosed
      exact absurd (hclosed _ rfl) (by simp)

-- ========================================================== literals

/-- A closer written twice is one, whatever follows the next line feed. -/
theorem LiteralRule.doublesCloser_joined {rule : LiteralRule}
    (hcloser : rule.closer.isPlain = true) (rest cs : List Char) :
    rule.doublesCloser (cs ++ '\n' :: rest) = rule.doublesCloser cs := by
  have hblank : ∀ c ∈ rule.closer.chars ++ rule.closer.chars,
      Text.isBlank c = false := by
    intro c hc
    rcases List.mem_append.1 hc with hc | hc <;>
      exact (Delimiter.isPlain_iff.1 hcloser).2 c hc
  rw [doublesCloser, doublesCloser, isPrefixOf_joined hblank]

/-- A bounded literal does not go past a line feed. -/
theorem LiteralRule.bodyEnd_newline {rule : LiteralRule}
    (hbounded : rule.maxLength.isSome = true) (offset : Nat)
    (rest : List Char) : rule.bodyEnd offset ('\n' :: rest) = .outOfBounds := by
  obtain ⟨limit, hlimit⟩ := Option.isSome_iff_exists.1 hbounded
  rw [bodyEnd, if_pos]
  simp [exceeds, hlimit]

/-- The end of a literal's body, and its end when more follows the text, which
is cut off at `stop`: a closer stays where it is, a bounded literal stays out
of bounds, or is so now that the text goes on with line feeds. -/
inductive BodyEnd.Joined (rule : LiteralRule) (stop : Nat) :
    BodyEnd → BodyEnd → Prop where
  | closer (found : Nat) (fits : found + rule.closer.length ≤ stop) :
    BodyEnd.Joined rule stop (.closer found) (.closer found)
  | outOfBounds : BodyEnd.Joined rule stop .outOfBounds .outOfBounds
  | endOfText (after : BodyEnd)
    (bounded : rule.maxLength.isSome = true → after = .outOfBounds) :
    BodyEnd.Joined rule stop .endOfText after

/-- Closers that lie in a text lie in a longer one. -/
theorem BodyEnd.Joined.mono {rule : LiteralRule} {stop stop' : Nat}
    {alone joined : BodyEnd} (h : BodyEnd.Joined rule stop alone joined)
    (hle : stop ≤ stop') :
    BodyEnd.Joined rule stop' alone joined := by
  cases h with
  | closer found fits => exact .closer found (Nat.le_trans fits hle)
  | outOfBounds => exact .outOfBounds
  | endOfText _ bounded => exact .endOfText _ bounded

/-- The end of a literal's body, with more behind the text. The induction is
that of `bodyEnd`; only an end of the text can come to something else. -/
theorem LiteralRule.bodyEnd_joined {rule : LiteralRule}
    (hcloser : rule.closer.isPlain = true) (rest : List Char) (offset : Nat)
    (cs : List Char) :
    BodyEnd.Joined rule (offset + cs.length) (rule.bodyEnd offset cs)
      (rule.bodyEnd offset (cs ++ '\n' :: '\n' :: rest)) := by
  fun_induction LiteralRule.bodyEnd rule offset cs with
  | case1 offset =>
      exact .endOfText _ fun hbounded =>
        LiteralRule.bodyEnd_newline hbounded offset _
  | case2 offset c cs hexceeds =>
      rw [List.cons_append, bodyEnd, if_pos hexceeds]
      exact .outOfBounds
  | case3 offset c cs hexceeds hescape ih =>
      rw [List.cons_append, bodyEnd, if_neg hexceeds, if_pos hescape]
      cases cs with
      | nil =>
          -- the escape takes the first line feed, and the second ends a bounded
          -- literal
          rw [List.drop_nil, bodyEnd]
          exact .endOfText _ fun hbounded =>
            LiteralRule.bodyEnd_newline hbounded _ _
      | cons d cs =>
          refine ih.mono ?_
          simp only [List.drop_succ_cons, List.drop_zero, List.length_cons]
          omega
  | case4 offset c cs hexceeds hescape hcloses hdoubles ih =>
      have hlength : 2 * rule.closer.length ≤ (c :: cs).length := by
        simp only [doublesCloser, Bool.and_eq_true] at hdoubles
        have hle := (List.isPrefixOf_iff_prefix.1 hdoubles.2).length_le
        rw [List.length_append] at hle
        rw [Delimiter.length]
        omega
      have hpos := Delimiter.length_pos hcloser
      rw [List.length_cons] at hlength
      rw [List.cons_append, bodyEnd, if_neg hexceeds, if_neg hescape,
        ← List.cons_append, Delimiter.startsAt_joined hcloser, if_pos hcloses,
        LiteralRule.doublesCloser_joined hcloser, if_pos hdoubles,
        List.drop_append_of_le_length (by omega)]
      refine ih.mono ?_
      rw [List.length_drop, List.length_cons]
      omega
  | case5 offset c cs hexceeds hescape hcloses hdoubles =>
      rw [List.cons_append, bodyEnd, if_neg hexceeds, if_neg hescape,
        ← List.cons_append, Delimiter.startsAt_joined hcloser, if_pos hcloses,
        LiteralRule.doublesCloser_joined hcloser, if_neg hdoubles]
      exact .closer offset
        (Nat.add_le_add_left (Delimiter.length_le hcloses) offset)
  | case6 offset c cs hexceeds hescape hcloses ih =>
      rw [List.cons_append, bodyEnd, if_neg hexceeds, if_neg hescape,
        ← List.cons_append, Delimiter.startsAt_joined hcloser, if_neg hcloses]
      refine ih.mono ?_
      rw [List.length_cons]
      omega

/-- A literal that is closed, or none, stays so. -/
theorem LiteralRule.lexeme?_stays {rule : LiteralRule}
    (hplain : rule.isPlain = true) (before : Option Char)
    (rest cs : List Char) :
    Lexeme.Stays rest cs (rule.lexeme? before) := by
  obtain ⟨hopener, hcloser, -, -⟩ := LiteralRule.isPlain_parts hplain
  intro hclosed
  unfold LiteralRule.lexeme? at *
  rw [Delimiter.opensAt_joined hopener]
  cases hopens : rule.opener.opensAt cs with
  | false => simp
  | true =>
      have hle := Delimiter.length_le (Delimiter.startsAt_of_opensAt hopens)
      have hpos := Delimiter.length_pos hopener
      simp only [hopens, Bool.not_true, Bool.false_eq_true, if_false,
        List.drop_append_of_le_length hle] at hclosed ⊢
      by_cases hword : (rule.wordPrefixed && before.any Text.isWordChar) = true
      · simp [hword]
      · simp only [hword, Bool.false_eq_true, if_false] at hclosed ⊢
        have hends := LiteralRule.bodyEnd_joined hcloser rest rule.opener.length
          (cs.drop rule.opener.length)
        rw [List.length_drop] at hends
        generalize rule.bodyEnd rule.opener.length (cs.drop rule.opener.length)
            = alone at *
        generalize rule.bodyEnd rule.opener.length
          (cs.drop rule.opener.length ++ '\n' :: '\n' :: rest) = joined at *
        cases hends with
        | outOfBounds => simp
        | closer found fits =>
            -- the content is read off the text that was there
            have hcontent :
                (cs.drop rule.opener.length ++ '\n' :: '\n' :: rest).take
                  (found - rule.opener.length)
                = (cs.drop rule.opener.length).take
                  (found - rule.opener.length) := by
              refine List.take_append_of_le_length ?_
              rw [List.length_drop]
              omega
            simp only [hcontent]
            refine ⟨trivial, fun lexeme hlexeme => ?_⟩
            split at hlexeme
            · cases hlexeme
            · rw [(Lexeme.ofLength?_iff.1 hlexeme).2.1]
              omega
        | endOfText after bounded =>
            cases hmax : rule.maxLength.isSome with
            | true =>
                rw [bounded hmax]
                simp
            | false =>
                -- an unbounded literal without a closer is no closed one
                simp only [hmax, Bool.false_eq_true, if_false, Lexeme.ofLength?]
                  at hclosed
                rw [dif_pos (by omega)] at hclosed
                exact absurd (hclosed _ rfl) (by simp)

/-- The first literal of a table that is closed stays the first. -/
theorem literals_stay {literals : List LiteralRule}
    (hplain : ∀ rule ∈ literals, rule.isPlain = true) (before : Option Char)
    (rest cs : List Char) :
    Lexeme.Stays rest cs fun text =>
      literals.findSome? (·.lexeme? before text) := by
  induction literals with
  | nil => exact fun _ => ⟨rfl, fun _ h => absurd h (by simp)⟩
  | cons rule literals ih =>
      intro hclosed
      have hrule :=
        LiteralRule.lexeme?_stays (hplain rule List.mem_cons_self)
          before rest cs
      simp only [List.findSome?_cons] at hclosed ⊢
      cases hlexeme : rule.lexeme? before cs with
      | some lexeme =>
          rw [hlexeme] at hclosed
          obtain ⟨hjoined, hlength⟩ := hrule fun l hl => by
            rw [hlexeme] at hl
            exact hclosed l hl
          rw [hjoined, hlexeme]
          exact ⟨rfl, fun l hl => hlength l (hlexeme.trans hl)⟩
      | none =>
          rw [hlexeme] at hclosed
          obtain ⟨hjoined, -⟩ := hrule fun l hl => by
            rw [hlexeme] at hl
            cases hl
          rw [hjoined, hlexeme]
          exact ih (fun r hr => hplain r (List.mem_cons_of_mem rule hr)) hclosed

-- ============================================================= spans

namespace Rules.Plain

variable {rules : Rules} {literals : List LiteralRule}

/-- Whatever is read at a place and is closed is read there when more
follows. -/
theorem lexemeAt?_stays (hplain : rules.Plain literals) (before : Option Char)
    (rest cs : List Char) :
    Lexeme.Stays rest cs (rules.lexemeAt? literals before) := by
  intro hclosed
  unfold Rules.lexemeAt? at *
  rw [Delimiter.opensAt_joined hplain.line,
    Delimiter.opensAt_joined hplain.opener]
  by_cases hline : rules.lineComment.opensAt cs = true
  · simp only [hline, if_true] at hclosed ⊢
    exact Rules.lineLexeme?_stays rest cs hclosed
  · by_cases hblock : rules.blockOpener.opensAt cs = true
    · simp only [hline, hblock, Bool.false_eq_true, if_true,
        if_false] at hclosed ⊢
      exact Rules.blockLexeme?_stays hplain.closer hplain.opener rest
        hblock hclosed
    · simp only [hline, hblock, Bool.false_eq_true, if_false] at hclosed ⊢
      exact literals_stay hplain.literal before rest cs hclosed

/-- White space outside of comments and literals is code. -/
theorem spansFrom_blank (hplain : rules.Plain literals) (start : Nat)
    (gathered : List Char) (before : Option Char) {c : Char}
    (hc : Text.isBlank c = true) (cs : List Char) :
    rules.spansFrom literals start gathered before (c :: cs)
      = rules.spansFrom literals start (c :: gathered) (some c) cs := by
  have hnone : rules.lexemeAt? literals before (c :: cs) = none := by
    cases h : rules.lexemeAt? literals before (c :: cs) with
    | none => rfl
    | some lexeme =>
        rw [(hplain.lexemeAt? h).1] at hc
        cases hc
  exact spansFrom_code hnone start gathered

/-- The spans of a text without unclosed ones, when an empty line and more
follow: the last stretch of code goes on. -/
theorem spansFrom_front (hplain : rules.Plain literals) (rest : List Char)
    (start : Nat) (gathered : List Char) (before : Option Char)
    (cs : List Char) :
    (∀ span ∈ rules.spansFrom literals start gathered before cs,
      span.unclosed = none) →
    ∃ front last code, rules.spansFrom literals start gathered before cs
        = front ++ codeSpan last code.reverse
      ∧ last + code.length = start + gathered.length + cs.length
      ∧ rules.spansFrom literals start gathered before
        (cs ++ '\n' :: '\n' :: rest)
        = front ++ rules.spansFrom literals last ('\n' :: '\n' :: code)
          (some '\n') rest := by
  fun_induction Rules.spansFrom rules literals start gathered before cs with
  | case1 start gathered before =>
      intro _
      refine ⟨[], start, gathered, rfl, rfl, ?_⟩
      rw [List.nil_append, List.nil_append,
        hplain.spansFrom_blank _ _ _ (by decide),
        hplain.spansFrom_blank _ _ _ (by decide)]
  | case2 start gathered before c cs lexeme hlexeme chars offset ih =>
      intro hclosed
      obtain ⟨hjoined, hlength⟩ :=
        hplain.lexemeAt?_stays before rest (c :: cs) fun l hl => by
        rw [hlexeme] at hl
        injection hl with hl
        rw [← hl]
        exact hclosed _ (List.mem_append_right _ List.mem_cons_self)
      rw [hlexeme] at hjoined
      have hle := hlength lexeme hlexeme
      obtain ⟨front, last, code, hspans, hlast, hrest⟩ := ih fun span hspan =>
        hclosed span (List.mem_append_right _ (List.mem_cons_of_mem _ hspan))
      refine ⟨codeSpan start gathered.reverse
        ++ { kind := lexeme.kind, start := offset, chars,
             unclosed := lexeme.unclosed } :: front,
        last, code, ?_, ?_, ?_⟩
      · rw [hspans, List.append_assoc, List.cons_append]
      · simp only [hlast, chars, offset, List.length_take, List.length_drop,
          List.length_nil]
        omega
      · rw [List.cons_append] at hjoined
        rw [List.cons_append, spansFrom_lexeme hjoined, ← List.cons_append,
          List.take_append_of_le_length hle,
          List.drop_append_of_le_length hle, hrest, List.append_assoc,
          List.cons_append]
  | case3 start gathered before c cs hlexeme ih =>
      intro hclosed
      obtain ⟨hjoined, -⟩ :=
        hplain.lexemeAt?_stays before rest (c :: cs) fun l hl => by
        rw [hlexeme] at hl
        cases hl
      obtain ⟨front, last, code, hspans, hlast, hrest⟩ := ih hclosed
      refine ⟨front, last, code, hspans, ?_, ?_⟩
      · rw [hlast, List.length_cons, List.length_cons]
        omega
      · rw [hlexeme, List.cons_append] at hjoined
        rw [List.cons_append, spansFrom_code hjoined]
        exact hrest

end Rules.Plain

/-- The span, `k` characters further on. -/
def Span.moved (k : Nat) (span : Span) : Span :=
  { span with start := span.start + k }

/-- The span of gathered code further on is that span, moved. -/
theorem codeSpan_moved (k start : Nat) (chars : List Char) :
    codeSpan (start + k) chars = (codeSpan start chars).map (·.moved k) := by
  unfold codeSpan
  split <;> rfl

/-- The same text further on has the same spans further on. -/
theorem spansFrom_moved (rules : Rules) (literals : List LiteralRule)
    (k start : Nat) (gathered : List Char) (before : Option Char)
    (cs : List Char) :
    rules.spansFrom literals (start + k) gathered before cs
      = (rules.spansFrom literals start gathered before cs).map
        (·.moved k) := by
  fun_induction Rules.spansFrom rules literals start gathered before cs with
  | case1 start gathered before => rw [Rules.spansFrom_nil, codeSpan_moved]
  | case2 start gathered before c cs lexeme hlexeme chars offset ih =>
      have hoffset : start + k + gathered.length = offset + k :=
        Nat.add_right_comm _ _ _
      rw [Rules.spansFrom_lexeme hlexeme, hoffset,
        Nat.add_right_comm offset k, ih, codeSpan_moved, List.map_append,
        List.map_cons]
      rfl
  | case3 start gathered before c cs hlexeme ih =>
      rw [Rules.spansFrom_code hlexeme, ih]

/-- What stands before a place matters only as the end of a word. -/
theorem lexemeAt?_before (rules : Rules) (literals : List LiteralRule)
    {before before' : Option Char}
    (h : before'.any Text.isWordChar = before.any Text.isWordChar)
    (cs : List Char) :
    rules.lexemeAt? literals before' cs
      = rules.lexemeAt? literals before cs := by
  have hliteral : ∀ rule : LiteralRule,
      rule.lexeme? before' cs = rule.lexeme? before cs := by
    intro rule
    rw [LiteralRule.lexeme?, LiteralRule.lexeme?, h]
  simp only [Rules.lexemeAt?, hliteral]

/-- Code gathered in front of a text joins its first stretch of code, and the
rest is cut as before, further on. -/
theorem spansFrom_gathered (rules : Rules) (literals : List LiteralRule)
    {k start' : Nat} (extra : List Char) (start : Nat) (gathered : List Char)
    (before : Option Char) (cs : List Char) :
    ∀ before' : Option Char,
      before'.any Text.isWordChar = before.any Text.isWordChar →
    start' + extra.length = start + k →
    ∃ code back, rules.spansFrom literals start gathered before cs
        = codeSpan start (gathered.reverse ++ code) ++ back
      ∧ rules.spansFrom literals start' (gathered ++ extra) before' cs
        = codeSpan start' (extra.reverse ++ gathered.reverse ++ code)
          ++ back.map (·.moved k) := by
  fun_induction Rules.spansFrom rules literals start gathered before cs with
  | case1 start gathered before =>
      intro before' _ _
      refine ⟨[], [], by simp, ?_⟩
      rw [Rules.spansFrom_nil, List.reverse_append, List.append_nil,
        List.map_nil, List.append_nil]
  | case2 start gathered before c cs lexeme hlexeme chars offset ih =>
      intro before' hbefore hstart
      refine ⟨[], _, congrArg (codeSpan start · ++ _) (List.append_nil _).symm,
        ?_⟩
      have hoffset : start' + (gathered ++ extra).length = offset + k := by
        simp only [offset, List.length_append]
        omega
      rw [Rules.spansFrom_lexeme
        ((lexemeAt?_before rules literals hbefore _).trans hlexeme),
        hoffset, Nat.add_right_comm offset k, spansFrom_moved,
        List.reverse_append, List.append_nil, List.map_cons]
      rfl
  | case3 start gathered before c cs hlexeme ih =>
      intro before' hbefore hstart
      obtain ⟨code, back, halone, hjoined⟩ := ih (some c) rfl hstart
      refine ⟨c :: code, back, ?_, ?_⟩
      · rw [halone, List.reverse_cons, List.append_assoc]
        rfl
      · rw [Rules.spansFrom_code
          ((lexemeAt?_before rules literals hbefore _).trans hlexeme)]
        rw [List.reverse_cons, ← List.append_assoc, List.append_assoc _ [c]]
          at hjoined
        exact hjoined

/-- The spans of two texts with an empty line between them. The last stretch
of code of the first text and the first of the second, both maybe empty,
become one. -/
theorem spans_joined {rules : Rules} (hplain : rules.isPlain = true)
    {a : List Char} (hclosed : ∀ span ∈ rules.spans a, span.unclosed = none)
    (b : List Char) :
    ∃ front last codeA codeB back, rules.spans a = front ++ codeSpan last codeA
      ∧ last + codeA.length = a.length
      ∧ rules.spans b = codeSpan 0 codeB ++ back
      ∧ rules.spans (a ++ '\n' :: '\n' :: b)
        = front
          ++ { kind := .code, start := last,
               chars := codeA ++ '\n' :: '\n' :: codeB }
          :: back.map (·.moved (a.length + 2)) := by
  have hrules := Rules.plain_of_isPlain hplain
  obtain ⟨front, last, code, hfront, hlast, hjoined⟩ :=
    hrules.spansFrom_front b 0 [] none a hclosed
  rw [List.length_nil, Nat.zero_add] at hlast
  obtain ⟨codeB, back, hback, hgathered⟩ :=
    spansFrom_gathered rules rules.orderedLiterals
    ('\n' :: '\n' :: code) 0 [] none b (some '\n')
    (by rw [Option.any_some, Option.any_none, Text.isWordChar_newline])
    (show last + ('\n' :: '\n' :: code).length = 0 + (a.length + 2) by
      simp only [List.length_cons]; omega)
  refine ⟨front, last, code.reverse, codeB, back, hfront, ?_, hback, ?_⟩
  · rw [List.length_reverse, hlast]
  · rw [Rules.spans, hjoined]
    rw [List.nil_append] at hgathered
    rw [hgathered]
    simp [codeSpan]

end Marginalia
