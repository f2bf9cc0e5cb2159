/-
Tokens of a text whose lines end in a carriage return and a line feed.

Both are white space, so the code between comments and literals has the tokens
it had (`codeTokens_crlf`), and reading the one text keeps step with reading the
other (`spansFrom_returned`): at the same place, or behind a line comment that
took the carriage return along, which is then missing from the code.

What goes on over a line feed because of a backslash does not do so any more,
since the carriage return is in between. That can be a directive or a bounded
literal (`lineBound`), and nothing else. So the two texts have the same tokens
exactly if no such token holds a line feed (`tokens_crlf_iff`).
-/
import Marginalia.Proofs.Span.Returns
import Marginalia.Proofs.Token.Joined

namespace Marginalia

open Text (crlf lf placed crlf_nil crlf_newline crlf_cons crlf_append crlf_line
  placed_add)

-- ======================================================== code spans

theorem Text.isWordChar_return : Text.isWordChar '\r' = false := by
  decide +kernel

/-- The token in the text with carriage returns. -/
def Token.returned (text : List Char) (token : Token) : Token :=
  ⟨token.kind, placed text token.start, String.ofList (crlf token.text.toList)⟩

theorem Token.returned_kind (text : List Char) (token : Token) :
    (token.returned text).kind = token.kind := rfl

theorem Token.returned_start (text : List Char) (token : Token) :
    (token.returned text).start = placed text token.start := rfl

/-- A token is the same with carriage returns behind it. -/
theorem tokenAt_crlf {c : Char} (hc : c ≠ '\n') (cs : List Char) :
    tokenAt c (crlf cs) = tokenAt c cs := by
  have hword : ∀ r, Text.isWordChar r = false → r ≠ '$' →
      continuesWord r = false := by
    intro r hr hdollar
    rw [continuesWord, hr, Bool.false_or, beq_eq_false_iff_ne]
    exact hdollar
  have hnumber : ∀ r, Text.isWordChar r = false → r ≠ '.' →
      continuesNumber r = false := by
    intro r hr hdot
    rw [continuesNumber, hr, Bool.false_or, beq_eq_false_iff_ne]
    exact hdot
  have hoperator : operators.find? (·.isPrefixOf (c :: crlf cs))
      = operators.find? (·.isPrefixOf (c :: cs)) := by
    rw [← crlf_cons hc]
    exact List.find?_congr fun operator hmem =>
      Text.isPrefixOf_crlf (operators_visible operator hmem) (c :: cs)
  unfold tokenAt
  rw [Text.takeWhile_crlf (hword _ Text.isWordChar_return (by decide))
      (hword _ Text.isWordChar_newline (by decide)),
    Text.takeWhile_crlf (hnumber _ Text.isWordChar_return (by decide))
      (hnumber _ Text.isWordChar_newline (by decide)), hoperator]

/-- White space that is no word character does not stand in a token. -/
theorem tokenAt_avoids {b : Char} (hblank : Text.isBlank b = true)
    (hword : Text.isWordChar b = false) (c : Char) (cs : List Char) :
    b ∉ cs.take (tokenAt c cs).2 := by
  have hsign : ∀ d, Text.isBlank d = false → b ≠ d := by
    rintro d hd rfl
    rw [hblank] at hd
    cases hd
  have htake : ∀ p : Char → Bool,
      p b = false → b ∉ cs.take (cs.takeWhile p).length := by
    intro p hp hmem
    rw [← List.prefix_iff_eq_take.1 (List.takeWhile_prefix p)] at hmem
    rw [List.mem_takeWhile_imp hmem] at hp
    cases hp
  unfold tokenAt
  split
  · refine htake continuesWord ?_
    rw [continuesWord, hword, Bool.false_or, beq_eq_false_iff_ne]
    exact hsign '$' (by decide)
  · split
    · refine htake continuesNumber ?_
      rw [continuesNumber, hword, Bool.false_or, beq_eq_false_iff_ne]
      exact hsign '.' (by decide)
    · split
      · next operator hfind =>
        have hstands : operator <+: c :: cs :=
          List.isPrefixOf_iff_prefix.1 (by simpa using List.find?_some hfind)
        have hvisible :=
          operators_visible operator (List.mem_of_find?_eq_some hfind)
        intro hmem
        have hoperator : b ∈ operator := by
          rw [List.prefix_iff_eq_take.1 hstands]
          cases operator with
          | nil => simp at hmem
          | cons o operator =>
              exact List.mem_cons_of_mem c (by simpa using hmem)
        exact hsign b (hvisible b hoperator) rfl
      · rw [List.take_zero]
        exact List.not_mem_nil

/-- A token is on one line. -/
theorem tokenAt_line (c : Char) (cs : List Char) :
    '\n' ∉ cs.take (tokenAt c cs).2 :=
  tokenAt_avoids (by decide) Text.isWordChar_newline c cs

/-- White space in front of code only moves its tokens. -/
theorem codeTokens_skip {c : Char} (hc : Text.isBlank c = true) (start : Nat)
    (cs : List Char) :
    codeTokens start (c :: cs) = codeTokens (start + 1) cs := by
  rw [codeTokens, if_pos hc]

/-- The tokens of a stretch of code. -/
theorem codeTokens_crlf {text rest : List Char} (start : Nat)
    (code : List Char) :
    text.drop start = code ++ rest →
      codeTokens (placed text start) (crlf code)
        = (codeTokens start code).map (Token.returned text) := by
  fun_induction codeTokens start code with
  | case1 start =>
      intro _
      rw [crlf_nil, codeTokens]
      rfl
  | case2 start c cs hblank ih =>
      intro htext
      have hhere : text.drop start = [c] ++ (cs ++ rest) := htext
      have hplaced := placed_add hhere
      have hnext : text.drop (start + 1) = cs ++ rest := by
        rw [← List.drop_drop, hhere]
        rfl
      rw [List.length_singleton] at hplaced
      rw [← ih hnext, hplaced]
      by_cases hc : c = '\n'
      · subst hc
        rw [crlf_newline, codeTokens_skip (by decide),
          codeTokens_skip (by decide)]
        rfl
      · rw [crlf_cons hc, codeTokens_skip hblank, crlf_cons hc]
        rfl
  | case3 start c cs hblank kind more hat ih =>
      intro htext
      have hc : c ≠ '\n' := by
        rintro rfl
        exact hblank (by decide)
      have hmore : more ≤ cs.length := by
        have hle := tokenAt_length c cs
        rw [hat] at hle
        exact hle
      have hline : '\n' ∉ cs.take more := by
        have hline := tokenAt_line c cs
        rw [hat] at hline
        exact hline
      obtain ⟨htake, hdrop⟩ := Text.take_crlf hline
      have htoken : crlf (c :: cs.take more) = c :: cs.take more := by
        rw [crlf_cons hc, crlf_line hline]
      have hhere : text.drop start
          = (c :: cs.take more) ++ (cs.drop more ++ rest) := by
        rw [htext, List.cons_append, List.cons_append, ← List.append_assoc,
          List.take_append_drop]
      have hlength : (c :: cs.take more).length = 1 + more := by
        rw [List.length_cons, List.length_take_of_le hmore, Nat.add_comm]
      have hplaced := placed_add hhere
      have hnext : text.drop (start + (c :: cs.take more).length)
          = cs.drop more ++ rest := by
        rw [← List.drop_drop, hhere, List.drop_left]
      rw [htoken, hlength, ← Nat.add_assoc, ← Nat.add_assoc] at hplaced
      rw [hlength, ← Nat.add_assoc] at hnext
      rw [crlf_cons hc, codeTokens, if_neg hblank, tokenAt_crlf hc, hat]
      simp only
      rw [htake, hdrop, ← hplaced, ih hnext, List.map_cons, Token.returned]
      simp only [String.toList_ofList, htoken]

-- =========================================================== reading

/-- The code gathered in a text, and in it with carriage returns. Behind a line
comment that took the carriage return along, the first line feed has none. -/
inductive Gathers (text : List Char) (start : Nat) :
    List Char → Nat → List Char → Prop where
  | level (code : List Char) :
    Gathers text start code (placed text start) (crlf code)
  | comment (code : List Char) :
    Gathers text start ('\n' :: code) (placed text start + 1)
      ('\n' :: crlf code)

namespace Gathers

variable {text : List Char} {start start' : Nat} {code code' : List Char}

/-- More code may be gathered on both sides. -/
theorem append (h : Gathers text start code start' code') (more : List Char) :
    Gathers text start (code ++ more) start' (code' ++ crlf more) := by
  cases h with
  | level code =>
      rw [← crlf_append]
      exact .level _
  | comment code =>
      rw [List.cons_append, List.cons_append, ← crlf_append]
      exact .comment _

/-- What was gathered ends at the same place of the text. -/
theorem stop (h : Gathers text start code start' code') {rest : List Char}
    (htext : text.drop start = code ++ rest) :
    start' + code'.length = placed text (start + code.length) := by
  rw [placed_add htext]
  cases h with
  | level code => rfl
  | comment code =>
      rw [crlf_newline, List.length_cons, List.length_cons, List.length_cons]
      omega

/-- And has the same tokens, at their places in the text with carriage
returns. -/
theorem tokens (h : Gathers text start code start' code') {rest : List Char}
    (htext : text.drop start = code ++ rest) :
    codeTokens start' code'
      = (codeTokens start code).map (Token.returned text) := by
  rw [← codeTokens_crlf start code htext]
  cases h with
  | level code => rfl
  | comment code =>
      -- the carriage return that is missing has no token
      rw [crlf_newline, codeTokens_skip (by decide) (placed text start)]

end Gathers

/-- How far the two texts are read: both up to the same place, or the one up to
a line feed and the other up to the one behind its carriage return. -/
inductive InStep (text : List Char) (start : Nat) :
    List Char → Option Char → List Char →
    Nat → List Char → Option Char → List Char → Prop where
  | level {gathered gathered' : List Char} {start' : Nat} (before : Option Char)
    (cs : List Char)
    (gathers : Gathers text start gathered.reverse start' gathered'.reverse) :
    InStep text start gathered before cs start' gathered' before (crlf cs)
  | comment (before before' : Option Char) (cs : List Char) :
    InStep text start [] before ('\n' :: cs) (placed text start + 1) [] before'
      ('\n' :: crlf cs)

/-- The tokens up to the end of a comment or literal, and those behind it. -/
theorem spansFrom_tokens {rules : Rules} {literals : List LiteralRule}
    {start : Nat} {gathered : List Char} {before : Option Char} {c : Char}
    {cs : List Char} {lexeme : Lexeme}
    (h : rules.lexemeAt? literals before (c :: cs) = some lexeme) :
    (rules.spansFrom literals start gathered before (c :: cs)).flatMap
      Span.tokens
      = codeTokens start gathered.reverse
        ++ (Span.tokens ⟨lexeme.kind, start + gathered.length,
          (c :: cs).take lexeme.length,
            lexeme.unclosed⟩
          ++ (rules.spansFrom literals
              (start + gathered.length + ((c :: cs).take lexeme.length).length)
                []
              ((c :: cs).take lexeme.length).getLast?
              ((c :: cs).drop lexeme.length)).flatMap Span.tokens) := by
  rw [Rules.spansFrom_lexeme h, List.flatMap_append, List.flatMap_cons,
    codeSpan_tokens]

/-- A literal is its own token, and a comment has none. -/
theorem Span.tokens_returned {text : List Char} {span span' : Span}
    (hkind : span'.kind = span.kind) (hcode : span.kind ≠ .code)
    (hstart : span'.start = placed text span.start)
    (hchars : span'.chars = crlf span.chars) :
    span'.tokens = span.tokens.map (Token.returned text) := by
  unfold Span.tokens
  rw [hkind]
  split
  · next hk => exact absurd hk hcode
  · rw [hstart, Span.text, hchars, List.map_singleton, Token.returned]
    simp only [Span.text, String.toList_ofList]
  · rfl

/-- The tokens of the text with carriage returns up to the end of a comment or
literal, and those behind it, given what they are in the other. -/
theorem Gathers.spansFrom {rules : Rules} {literals : List LiteralRule}
    {text : List Char} {start start' : Nat} {gathered gathered' : List Char}
    {before : Option Char} {c : Char} {cs chars' rest : List Char}
    {lexeme : Lexeme} {tokens behind : List Token} (hc : c ≠ '\n')
    (gathers : Gathers text start gathered.reverse start' gathered'.reverse)
    (htext : text.drop start = gathered.reverse ++ rest)
    (hlexeme : rules.lexemeAt? literals before (crlf (c :: cs)) = some lexeme)
    (hchars : (crlf (c :: cs)).take lexeme.length = chars')
    (htokens : Span.tokens ⟨lexeme.kind,
      placed text (start + gathered.length), chars',
        lexeme.unclosed⟩ = tokens.map (Token.returned text))
    (hbehind : (rules.spansFrom literals
          (placed text (start + gathered.length) + chars'.length) []
            chars'.getLast?
          ((crlf (c :: cs)).drop lexeme.length)).flatMap Span.tokens
      = behind.map (Token.returned text)) :
    (rules.spansFrom literals start' gathered' before (crlf (c :: cs))).flatMap
      Span.tokens
      = (codeTokens start gathered.reverse ++ (tokens ++ behind)).map
        (Token.returned text) := by
  have hoffset := gathers.stop htext
  rw [List.length_reverse, List.length_reverse] at hoffset
  rw [crlf_cons hc] at hlexeme hchars hbehind ⊢
  rw [spansFrom_tokens hlexeme, hchars, hoffset, gathers.tokens htext, htokens,
    hbehind, List.map_append, List.map_append]

/-- Behind a line comment a line feed is next in both texts. -/
theorem InStep.behind_line {text front rest : List Char} {offset : Nat}
    (hfront : '\n' ∉ front) (hhere : text.drop offset = front ++ '\n' :: rest)
    (before before' : Option Char) :
    InStep text (offset + front.length) [] before ('\n' :: rest)
      (placed text offset + (front ++ ['\r']).length) [] before'
        ('\n' :: crlf rest) := by
  have hplaced := placed_add hhere
  rw [crlf_line hfront] at hplaced
  rw [List.length_append, ← Nat.add_assoc, ← hplaced]
  exact .comment before before' rest

/-- Behind a stretch that is the same in both texts they are in step. -/
theorem InStep.behind_stretch {text chars rest : List Char} {offset : Nat}
    (hhere : text.drop offset = chars ++ rest) :
    InStep text (offset + chars.length) [] chars.getLast? rest
      (placed text offset + (crlf chars).length) [] (crlf chars).getLast?
        (crlf rest) := by
  rw [← placed_add hhere, Text.getLast?_crlf]
  exact .level _ _ (.level [])

/-- A line with its line feed is cut in front of the line feed once the carriage
return takes its place. -/
theorem take_drop_line {cs front rest : List Char} {n : Nat}
    (hcs : cs = front ++ '\n' :: rest) (hfront : '\n' ∉ front)
    (hn : n = front.length + 1) :
    (crlf cs).take n = front ++ ['\r']
      ∧ (crlf cs).drop n = '\n' :: crlf rest := by
  have hcrlf : crlf cs = (front ++ ['\r']) ++ '\n' :: crlf rest := by
    rw [hcs, crlf_append, crlf_line hfront, crlf_newline, List.append_assoc]
    rfl
  have hlength : n = (front ++ ['\r']).length := by
    rw [hn, List.length_append, List.length_singleton]
  rw [hcrlf, hlength, List.take_left, List.drop_left]
  exact ⟨rfl, rfl⟩

theorem drop_gathered {text gathered cs : List Char} {start : Nat}
    (h : text.drop start = gathered.reverse ++ cs) :
    text.drop (start + gathered.length) = cs := by
  rw [← List.drop_drop, h, ← List.length_reverse, List.drop_left]

/-- One step over a comment or literal: the tokens up to its end are the same in
both texts, and so are all if those behind it are. -/
theorem Rules.Plain.lexeme_step {rules : Rules} {literals : List LiteralRule}
    (hplain : rules.Plain literals) {text : List Char} {start start' : Nat}
    {gathered gathered' : List Char} {before : Option Char} {c : Char}
    {cs chars : List Char} {lexeme : Lexeme} {behind : List Token}
    (hlexeme : rules.lexemeAt? literals before (c :: cs) = some lexeme)
    (hchars : (c :: cs).take lexeme.length = chars)
    (hkept : lexeme.kind.isLiteral = true → OpensBounded literals chars →
      '\n' ∉ chars)
    (htext : text.drop start = gathered.reverse ++ c :: cs)
    (gathers : Gathers text start gathered.reverse start' gathered'.reverse)
    (hbehind : ∀ start' before' cs',
      InStep text (start + gathered.length + chars.length) [] chars.getLast?
        ((c :: cs).drop lexeme.length) start' [] before' cs' →
      (rules.spansFrom literals start' [] before' cs').flatMap Span.tokens
        = behind.map (Token.returned text)) :
    (rules.spansFrom literals start' gathered' before (crlf (c :: cs))).flatMap
      Span.tokens
      = (codeTokens start gathered.reverse
          ++ (Span.tokens ⟨lexeme.kind, start + gathered.length, chars,
            lexeme.unclosed⟩
            ++ behind)).map (Token.returned text) := by
  obtain ⟨hblank, hcode⟩ := hplain.lexemeAt? hlexeme
  have hc : c ≠ '\n' := by
    rintro rfl
    exact absurd hblank (by decide)
  have hhere : text.drop (start + gathered.length)
      = chars ++ (c :: cs).drop lexeme.length := by
    rw [← hchars, List.take_append_drop, drop_gathered htext]
  have hreturned := hplain.lexemeAt?_returned before hc cs
  rw [hlexeme] at hreturned
  generalize hb : rules.lexemeAt? literals before (crlf (c :: cs)) = b
      at hreturned
  cases hreturned with
  | @line _ b front rest hcs line kind kind' length length' =>
      -- neither comment has a token, and a line feed is next in both texts
      obtain ⟨htake, hdrop⟩ := take_drop_line hcs line length'
      refine gathers.spansFrom hc htext hb htake ?_ ?_
      · simp only [Span.tokens, kind, kind', List.map_nil]
      · rw [hdrop]
        refine hbehind _ _ _ ?_
        rw [length, hcs, List.take_left] at hchars
        rw [length, hcs, List.drop_left, ← hchars] at hhere ⊢
        exact .behind_line line hhere _ _
  | @whole _ b kind length =>
      have htake : (crlf (c :: cs)).take b.length = crlf chars := by
        rw [length, ← hchars]
        exact Text.take_placed (c :: cs) lexeme.length
      have hdrop : (crlf (c :: cs)).drop b.length
          = crlf ((c :: cs).drop lexeme.length) := by
        rw [length]
        exact Text.drop_placed (c :: cs) lexeme.length
      refine gathers.spansFrom hc htext hb htake
        (Span.tokens_returned kind hcode rfl rfl) ?_
      rw [hdrop]
      exact hbehind _ _ _ (.behind_stretch hhere)
  | broken _ rule mem bounded kind opener breaks =>
      have hliteral : lexeme.kind.isLiteral = true := by
        rw [kind]
        exact (LiteralRule.isPlain_parts (hplain.literal rule mem)).2.2.1
      rw [hchars] at opener breaks
      exact absurd breaks (hkept hliteral ⟨rule, mem, bounded, opener⟩)

/-- Reading the two texts to their ends gives the same tokens, unless a bounded
literal holds a line feed. -/
theorem Rules.Plain.spansFrom_returned {rules : Rules}
    {literals : List LiteralRule} (hplain : rules.Plain literals)
    (text : List Char) (start : Nat) (gathered : List Char)
    (before : Option Char) (cs : List Char) :
    text.drop start = gathered.reverse ++ cs →
    (∀ span ∈ rules.spansFrom literals start gathered before cs,
      span.kind.isLiteral = true →
      OpensBounded literals span.chars → '\n' ∉ span.chars) →
    ∀ start' gathered' before' cs',
      InStep text start gathered before cs start' gathered' before' cs' →
      (rules.spansFrom literals start' gathered' before' cs').flatMap
        Span.tokens
        = ((rules.spansFrom literals start gathered before cs).flatMap
          Span.tokens).map
            (Token.returned text) := by
  fun_induction Rules.spansFrom rules literals start gathered before cs with
  | case1 start gathered before =>
      intro htext _ start' gathered' before' cs' hstep
      cases hstep with
      | level _ _ gathers =>
          rw [crlf_nil, Rules.spansFrom_nil, codeSpan_tokens, codeSpan_tokens]
          exact gathers.tokens htext
  | case2 start gathered before c cs lexeme hlexeme chars offset ih =>
      intro htext hkept start' gathered' before' cs' hstep
      cases hstep with
      | comment => exact absurd (hplain.lexemeAt? hlexeme).1 (by decide)
      | level _ _ gathers =>
          have hbehind : text.drop (offset + chars.length)
              = (c :: cs).drop lexeme.length := by
            have hhere := drop_gathered htext
            rw [← List.take_append_drop lexeme.length (c :: cs)] at hhere
            rw [← List.drop_drop, hhere, List.drop_left]
          have hrest := fun span hspan =>
            hkept span (List.mem_append_right _ (List.mem_cons_of_mem _ hspan))
          have hhere := hkept _ (List.mem_append_right _ List.mem_cons_self)
          rw [List.flatMap_append, List.flatMap_cons, codeSpan_tokens]
          exact hplain.lexeme_step hlexeme rfl hhere htext gathers
            fun start' before' cs' => ih hbehind hrest start' [] before' cs'
  | case3 start gathered before c cs hlexeme ih =>
      intro htext hkept start' gathered' before' cs' hstep
      have hnext : text.drop start = (c :: gathered).reverse ++ cs := by
        rw [htext, List.reverse_cons, List.append_assoc]
        rfl
      cases hstep with
      | comment before before' cs =>
          rw [hplain.spansFrom_blank _ _ _ (by decide)]
          exact ih hnext hkept _ _ _ _ (.level _ _ (.comment []))
      | level _ _ gathers =>
          have hgathers := gathers.append [c]
          rw [← List.reverse_cons] at hgathers
          by_cases hc : c = '\n'
          · subst hc
            rw [crlf_newline, hplain.spansFrom_blank _ _ _ (by decide),
              hplain.spansFrom_blank _ _ _ (by decide)]
            have hreverse : ('\n' :: '\r' :: gathered').reverse
                = gathered'.reverse ++ crlf ['\n'] := by simp
            rw [← hreverse] at hgathers
            exact ih hnext hkept _ _ _ _ (.level _ _ hgathers)
          · have hreturned := hplain.lexemeAt?_returned before hc cs
            rw [hlexeme] at hreturned
            generalize hb : rules.lexemeAt? literals before (crlf (c :: cs)) = b
                at hreturned
            cases hreturned with
            | nothing =>
                rw [crlf_cons hc, crlf_nil, ← List.reverse_cons] at hgathers
                rw [crlf_cons hc] at hb ⊢
                rw [Rules.spansFrom_code hb]
                exact ih hnext hkept _ _ _ _ (.level _ _ hgathers)

-- ================================================ where tokens stand

/-- The text of a token stands where the token starts. -/
theorem codeTokens_stand (start : Nat) (cs : List Char) :
    ∀ t ∈ codeTokens start cs, ∃ i,
      t.start = start + i ∧ t.text.toList <+: cs.drop i := by
  fun_induction codeTokens start cs with
  | case1 start =>
      intro t ht
      cases ht
  | case2 start c cs hblank ih =>
      intro t ht
      obtain ⟨i, hi, hstands⟩ := ih t ht
      exact ⟨i + 1, by omega, hstands⟩
  | case3 start c cs hblank kind more hat ih =>
      intro t ht
      rcases List.mem_cons.1 ht with rfl | ht
      · refine ⟨0, rfl, ?_⟩
        rw [String.toList_ofList]
        exact (List.prefix_cons_inj _).2 (List.take_prefix more cs)
      · obtain ⟨i, hi, hstands⟩ := ih t ht
        refine ⟨more + i + 1, by omega, ?_⟩
        rw [List.drop_drop] at hstands
        exact hstands

/-- The tokens of a text's spans stand in it where they start. -/
theorem spanTokens_stand (rules : Rules) (text : List Char) :
    ∀ t ∈ (rules.spans text).flatMap Span.tokens,
      t.text.toList <+: text.drop t.start := by
  intro t ht
  obtain ⟨span, hspan, ht⟩ := List.mem_flatMap.1 ht
  have hdrop := spans_drop hspan
  unfold Span.tokens at ht
  split at ht
  · obtain ⟨i, hi, hstands⟩ := codeTokens_stand span.start span.chars t ht
    rw [hi, ← List.drop_drop, hdrop, List.drop_append]
    exact hstands.trans (List.prefix_append _ _)
  · rw [List.mem_singleton.1 ht, hdrop, Span.text, String.toList_ofList]
    exact List.prefix_append _ _
  · cases ht

theorem Token.drop_sign {text : List Char} {token : Token}
    (htext : token.text = "#")
    (hstands : token.text.toList <+: text.drop token.start) :
    text.drop token.start = '#' :: text.drop (token.start + 1) := by
  obtain ⟨rest, hrest⟩ := hstands
  rw [htext] at hrest
  rw [← List.drop_drop, ← hrest]
  rfl

/-- So does the text of a directive, which starts with its number sign. -/
theorem Token.directive_stands {text : List Char} {token : Token}
    (htext : token.text = "#")
    (hstands : token.text.toList <+: text.drop token.start) :
    (token.directive text).text.toList
      <+: text.drop (token.directive text).start := by
  have hdrop := Token.drop_sign htext hstands
  rw [directive, String.toList_ofList, hdrop]
  exact (List.prefix_cons_inj _).2 (List.take_prefix _ _)

/-- The tokens of a text stand in it where they start. -/
theorem tokens_stand (rules : Rules) (text : List Char) :
    ∀ t ∈ rules.tokens text (rules.spans text),
      t.text.toList <+: text.drop t.start := by
  intro t ht
  rcases mem_tokens ht with ht | ⟨token, htoken, hsign, rfl⟩
  · exact spanTokens_stand rules text t ht
  · exact Token.directive_stands hsign
      (spanTokens_stand rules text token htoken)

-- ======================================================== directives

/-- With carriage returns a logical line is a line. -/
theorem logicalLineLength_crlf (cs : List Char) :
    ∀ before, logicalLineLength before (crlf cs)
      = (cs.takeWhile (· ≠ '\n')).length := by
  induction cs with
  | nil =>
      intro before
      rfl
  | cons c cs ih =>
      intro before
      by_cases hc : c = '\n'
      · rw [hc, crlf_newline, List.takeWhile_cons_of_neg (by simp)]
        rfl
      · have hhead : ((crlf cs).head? == some '\n') = false := by
          rw [beq_eq_false_iff_ne]
          exact (Text.returned_crlf cs).2
        have hbreak : (c == '\n') = false := by simpa using hc
        rw [crlf_cons hc, logicalLineLength, hhead, hbreak, Bool.false_and,
          Bool.and_false, if_neg Bool.false_ne_true, if_neg Bool.false_ne_true,
          ih, List.takeWhile_cons_of_pos
          (by simpa using hc), List.length_cons]

/-- A logical line that holds no line feed is a line. -/
theorem logicalLineLength_line {cs : List Char} (hreturn : '\r' ∉ cs) :
    ∀ before, '\n' ∉ cs.take (logicalLineLength before cs) →
      logicalLineLength before cs = (cs.takeWhile (· ≠ '\n')).length := by
  induction cs with
  | nil =>
      intro before _
      rfl
  | cons c cs ih =>
      intro before hline
      rw [List.mem_cons, not_or] at hreturn
      have hc : (c == '\r') = false := by
        rw [beq_eq_false_iff_ne]
        exact Ne.symm hreturn.1
      rw [logicalLineLength, hc, Bool.false_and, if_neg Bool.false_ne_true]
        at hline ⊢
      split at hline
      · next hbreak =>
        rw [if_pos hbreak]
        simp only [Bool.and_eq_true, beq_iff_eq] at hbreak
        rw [hbreak.1, List.takeWhile_cons_of_neg (by simp)]
        rfl
      · next hbreak =>
        rw [List.take_succ_cons, List.mem_cons, not_or] at hline
        rw [if_neg hbreak, ih hreturn.2 c hline.2,
          List.takeWhile_cons_of_pos (by simpa using Ne.symm hline.1),
          List.length_cons]

/-- A logical line goes on over a line feed behind a backslash only; the first
one may be the character in front. -/
theorem logicalLineLength_continued (cs : List Char) :
    ∀ before front back,
      cs.take (logicalLineLength before cs) = front ++ '\n' :: back →
      (before :: front).getLast? = some '\\' := by
  induction cs with
  | nil =>
      intro before front back h
      rw [List.take_nil] at h
      exact absurd h (by simp)
  | cons c cs ih =>
      intro before front back h
      rw [logicalLineLength] at h
      split at h
      · exact absurd h (by simp)
      · next hbreak =>
        split at h
        · exact absurd h (by simp)
        · rw [List.take_succ_cons] at h
          cases front with
          | nil =>
              injection h with hc
              rw [hc] at hbreak
              simpa using hbreak
          | cons d front =>
              injection h with hc hrest
              rw [← hc, List.getLast?_cons_cons]
              exact ih c front back hrest

/-- A carriage return is white space, so the same places start a line. -/
theorem startsLine_crlf (text : List Char) (offset : Nat) :
    startsLine (crlf text) (placed text offset) = startsLine text offset := by
  rw [startsLine, startsLine, Text.take_placed, Text.takeWhile_reverse_crlf]

/-- A token ends at the same place of the text. -/
theorem Token.returned_stop {text : List Char} {token : Token}
    (hstands : token.text.toList <+: text.drop token.start) :
    (token.returned text).stop = placed text token.stop := by
  obtain ⟨rest, hrest⟩ := hstands
  have hplaced := placed_add hrest.symm
  rw [String.length_toList] at hplaced
  rw [Token.stop, Token.stop, hplaced, Token.returned, String.length_ofList]

/-- The number sign is no line feed, so the same tokens are it. -/
theorem Token.returned_sign (text : List Char) (token : Token) :
    ((token.returned text).text == "#") = (token.text == "#") := by
  rw [Bool.eq_iff_iff, beq_iff_eq, beq_iff_eq, returned, ← String.toList_inj,
    ← String.toList_inj, String.toList_ofList]
  exact Text.crlf_eq_line (by decide)

/-- A directive on one line is the same. -/
theorem Token.directive_returned {text : List Char} (hreturn : '\r' ∉ text)
    {token : Token} (htext : token.text = "#")
    (hstands : token.text.toList <+: text.drop token.start)
    (hline : '\n' ∉ (token.directive text).text.toList) :
    (token.returned text).directive (crlf text)
      = (token.directive text).returned text := by
  have hdrop := Token.drop_sign htext hstands
  have hplaced : placed text (token.start + 1) = placed text token.start + 1 :=
    placed_add (show text.drop token.start
      = ['#'] ++ text.drop (token.start + 1) from hdrop)
  have hrest : '\r' ∉ text.drop (token.start + 1) := fun hmem =>
    hreturn (List.mem_of_mem_drop hmem)
  rw [directive, String.toList_ofList, List.mem_cons, not_or] at hline
  have hlength := logicalLineLength_line hrest '#' hline.2
  rw [directive, directive, returned, returned]
  simp only [String.toList_ofList]
  rw [← hplaced, Text.drop_placed, logicalLineLength_crlf, ← hlength,
    (Text.take_crlf hline.2).1, crlf_cons (by decide), crlf_line hline.2]

/-- The directives of a text, if they are on one line each. -/
theorem gatherDirectives_returned {text : List Char} (hreturn : '\r' ∉ text)
    (directiveEnd : Nat) (tokens : List Token) :
    (∀ t ∈ tokens, t.start < text.length
      ∧ t.text.toList <+: text.drop t.start) →
    directiveEnd ≤ text.length →
    (∀ t ∈ gatherDirectives text directiveEnd tokens, t.kind = .directive →
      '\n' ∉ t.text.toList) →
    gatherDirectives (crlf text) (placed text directiveEnd)
      (tokens.map (Token.returned text))
      = (gatherDirectives text directiveEnd tokens).map
        (Token.returned text) := by
  fun_induction gatherDirectives text directiveEnd tokens with
  | case1 => exact fun _ _ _ => rfl
  | case2 directiveEnd token tokens hinside ih =>
      intro hin hend hline
      obtain ⟨hstart, -⟩ := hin token List.mem_cons_self
      rw [List.map_cons, gatherDirectives, Token.returned_start,
        if_pos ((Text.placed_lt_iff hstart hend).2 hinside)]
      exact ih (fun t ht => hin t (List.mem_cons_of_mem token ht)) hend hline
  | case3 directiveEnd token tokens hinside hdirective directive ih =>
      intro hin hend hline
      obtain ⟨hstart, hstands⟩ := hin token List.mem_cons_self
      have hsign : token.text = "#" := by
        simp only [Bool.and_eq_true, beq_iff_eq] at hdirective
        exact hdirective.1.1
      have hreturned := Token.directive_returned hreturn hsign hstands
        (hline _ List.mem_cons_self rfl)
      have hstop := Token.returned_stop (Token.directive_stands hsign hstands)
      rw [List.map_cons, gatherDirectives, Token.returned_start,
        if_neg (mt (Text.placed_lt_iff hstart hend).1 hinside),
        Token.returned_sign, Token.returned_kind, startsLine_crlf,
        if_pos hdirective]
      simp only
      rw [hreturned, hstop,
        ih (fun t ht => hin t (List.mem_cons_of_mem token ht))
        (Token.directive_stop_le hstart) fun t ht =>
          hline t (List.mem_cons_of_mem _ ht)]
      rfl
  | case4 directiveEnd token tokens hinside hdirective ih =>
      intro hin hend hline
      obtain ⟨hstart, -⟩ := hin token List.mem_cons_self
      rw [List.map_cons, gatherDirectives, Token.returned_start,
        if_neg (mt (Text.placed_lt_iff hstart hend).1 hinside),
        Token.returned_sign, Token.returned_kind, startsLine_crlf,
        if_neg hdirective,
        ih (fun t ht => hin t (List.mem_cons_of_mem token ht)) hend
          fun t ht => hline t (List.mem_cons_of_mem _ ht)]
      rfl

-- ===================================================== the two texts

/-- Whether the token has to end on its line: a directive, or a literal that
opens like a bounded one. It goes on over a line feed behind a backslash
only. -/
def Rules.lineBound (rules : Rules) (token : Token) : Bool :=
  token.kind == .directive
    || token.kind == .literal
      && rules.literals.any fun rule =>
        rule.maxLength.isSome && rule.opener.startsAt token.text.toList

/-- The tokens in which a line feed may be escaped: directives and literals that
open like a bounded one. -/
theorem Rules.lineBound_iff {rules : Rules} {token : Token} :
    rules.lineBound token = true ↔ token.kind = .directive
      ∨ token.kind = .literal
        ∧ OpensBounded rules.literals token.text.toList := by
  simp only [lineBound, OpensBounded, Bool.or_eq_true, Bool.and_eq_true,
    beq_iff_eq, List.any_eq_true, Delimiter.startsAt_iff]

/-- An opener stands in front also where carriage returns are taken out. -/
theorem OpensBounded.of_lf {rules : Rules} (hplain : rules.isPlain = true)
    {chars : List Char} (h : OpensBounded rules.literals (lf chars)) :
    OpensBounded rules.literals chars := by
  obtain ⟨rule, hrule, hbounded, hopener⟩ := h
  have hopenerPlain :=
    (LiteralRule.isPlain_parts (Rules.isPlain_literal hplain hrule)).1
  refine ⟨rule, hrule, hbounded, ?_⟩
  rw [← List.isPrefixOf_iff_prefix,
    Text.isPrefixOf_lf (Delimiter.isPlain_iff.1 hopenerPlain).2] at hopener
  exact List.isPrefixOf_iff_prefix.1 hopener

theorem codeTokens_kind (start : Nat) (cs : List Char) :
    ∀ t ∈ codeTokens start cs, t.kind ≠ .literal ∧ t.kind ≠ .directive := by
  have hkind : ∀ c cs,
      (tokenAt c cs).1 ≠ .literal ∧ (tokenAt c cs).1 ≠ .directive := by
    intro c cs
    unfold tokenAt
    split
    · exact ⟨TokenKind.noConfusion, TokenKind.noConfusion⟩
    · split
      · exact ⟨TokenKind.noConfusion, TokenKind.noConfusion⟩
      · split
        · exact ⟨TokenKind.noConfusion, TokenKind.noConfusion⟩
        · exact ⟨TokenKind.noConfusion, TokenKind.noConfusion⟩
  fun_induction codeTokens start cs with
  | case1 start =>
      intro t ht
      cases ht
  | case2 start c cs hblank ih => exact ih
  | case3 start c cs hblank kind more hat ih =>
      intro t ht
      rcases List.mem_cons.1 ht with rfl | ht
      · have hat' := hkind c cs
        rw [hat] at hat'
        exact hat'
      · exact ih t ht

/-- A literal among the tokens of spans is a span. -/
theorem spanTokens_literal {spans : List Span} {t : Token}
    (ht : t ∈ spans.flatMap Span.tokens) :
    t.kind ≠ .directive ∧ (t.kind = .literal →
      ∃ span ∈ spans, span.kind.isLiteral = true
        ∧ t.text.toList = span.chars) := by
  obtain ⟨span, hspan, ht⟩ := List.mem_flatMap.1 ht
  unfold Span.tokens at ht
  split at ht
  · obtain ⟨hliteral, hdirective⟩ := codeTokens_kind span.start span.chars t ht
    exact ⟨hdirective, fun h => absurd h hliteral⟩
  · next hkind =>
    rw [List.mem_singleton.1 ht]
    refine ⟨TokenKind.noConfusion, fun _ => ⟨span, hspan, ?_, ?_⟩⟩
    · rw [hkind]
      rfl
    · rw [Span.text, String.toList_ofList]
  · cases ht

namespace Rules

variable {rules : Rules} {text : List Char}

/-- A token that has to end on its line goes on behind a backslash only. -/
theorem BoundsApart.lineBound_continued (hapart : rules.BoundsApart)
    (hdelimited : rules.Delimited) (hplain : rules.isPlain = true) {t : Token}
    (ht : t ∈ rules.tokens text (rules.spans text))
    (hbound : rules.lineBound t = true) : Text.Continued t.text.toList := by
  rcases mem_tokens ht with ht | ⟨token, htoken, hsign, rfl⟩
  · obtain ⟨hdirective, hliteral⟩ := spanTokens_literal ht
    rcases lineBound_iff.1 hbound with hkind | ⟨hkind, hopens⟩
    · exact absurd hkind hdirective
    · obtain ⟨span, hspan, hspanLiteral, hchars⟩ := hliteral hkind
      rw [hchars] at hopens ⊢
      exact hapart.literal_continued hdelimited hplain hspan hspanLiteral hopens
  · rw [Token.directive, String.toList_ofList]
    intro front back hsplit
    cases front with
    | nil =>
        injection hsplit with hfirst
        exact absurd hfirst (by decide)
    | cons first front =>
        injection hsplit with hfirst hrest
        rw [← hfirst]
        exact logicalLineLength_continued _ '#' front back hrest

/-- With carriage returns every token that has to end on its line does. -/
theorem BoundsApart.lineBound_line (hapart : rules.BoundsApart)
    (hdelimited : rules.Delimited) (hplain : rules.isPlain = true) {t : Token}
    (ht : t ∈ rules.tokens (crlf text) (rules.spans (crlf text)))
    (hbound : rules.lineBound t = true) : '\n' ∉ t.text.toList := by
  have hinside : t.text.toList <:+: crlf text :=
    (tokens_stand rules (crlf text) t ht).isInfix.trans
      (List.drop_suffix _ _).isInfix
  exact (hapart.lineBound_continued hdelimited hplain ht hbound).line
    ((Text.returned_crlf text).1.part hinside)

/-- The tokens of the spans, unless a bounded literal holds a line feed. -/
theorem spanTokens_returned (hplain : rules.isPlain = true)
    (hkept : ∀ span ∈ rules.spans text, span.kind.isLiteral = true →
      OpensBounded rules.literals span.chars → '\n' ∉ span.chars) :
    (rules.spans (crlf text)).flatMap Span.tokens
      = ((rules.spans text).flatMap Span.tokens).map (Token.returned text) := by
  have hordered : ∀ {chars}, OpensBounded rules.orderedLiterals chars →
      OpensBounded rules.literals chars := by
    rintro chars ⟨rule, hrule, hopens⟩
    exact ⟨rule, List.mem_mergeSort.1 hrule, hopens⟩
  refine (plain_of_isPlain hplain).spansFrom_returned text 0 [] none text rfl
    (fun span hspan hliteral hopens =>
      hkept span hspan hliteral (hordered hopens)) 0 [] none
    (crlf text) (.level none text ?_)
  have hgathers : Gathers text 0 [] (placed text 0) (crlf []) := .level []
  rw [Text.placed_zero] at hgathers
  exact hgathers

/-- The tokens, if every one that has to end on its line does. -/
theorem BoundsApart.tokens_returned (hapart : rules.BoundsApart)
    (hplain : rules.isPlain = true) (hreturn : '\r' ∉ text)
    (hline : ∀ t ∈ rules.tokens text (rules.spans text), rules.lineBound t
      = true →
      '\n' ∉ t.text.toList) :
    rules.tokens (crlf text) (rules.spans (crlf text))
      = (rules.tokens text (rules.spans text)).map (Token.returned text) := by
  unfold Rules.tokens at hline ⊢
  simp only at hline ⊢
  by_cases hpreprocessor : rules.preprocessor = true
  · -- no literal is bounded
    have hkept : ∀ span ∈ rules.spans text, span.kind.isLiteral = true →
        OpensBounded rules.literals span.chars → '\n' ∉ span.chars := by
      rintro span - - ⟨rule, hrule, hbounded, -⟩
      rw [hapart.directives hpreprocessor rule hrule] at hbounded
      cases hbounded
    rw [if_pos hpreprocessor] at hline
    rw [if_pos hpreprocessor, if_pos hpreprocessor,
      spanTokens_returned hplain hkept, ← Text.placed_zero text]
    refine gatherDirectives_returned hreturn 0 _
      (fun t ht => ?_) (Nat.zero_le _)
      fun t ht hkind => hline t ht (lineBound_iff.2 (Or.inl hkind))
    exact ⟨(spanTokens_visible hplain text t ht).1.lt,
      spanTokens_stand rules text t ht⟩
  · -- every literal is a token
    rw [if_neg hpreprocessor] at hline
    rw [if_neg hpreprocessor, if_neg hpreprocessor]
    refine spanTokens_returned hplain fun span hspan hliteral hopens => ?_
    obtain ⟨kind, hkind⟩ : ∃ kind, span.kind = .literal kind := by
      cases hkind : span.kind with
      | literal kind => exact ⟨kind, rfl⟩
      | code =>
          rw [hkind] at hliteral
          cases hliteral
      | comment kind =>
          rw [hkind] at hliteral
          cases hliteral
    have htoken : (⟨.literal, span.start, span.text⟩ : Token)
        ∈ span.tokens := by
      rw [Span.tokens, hkind]
      exact List.mem_singleton_self _
    have hchars : span.text.toList = span.chars := String.toList_ofList
    have hspanLine := hline _ (List.mem_flatMap.2 ⟨span, hspan, htoken⟩)
    rw [lineBound_iff, hchars] at hspanLine
    exact hspanLine (Or.inr ⟨rfl, hopens⟩)

end Rules

/-- A text and the text with a carriage return in front of every line feed have
the same tokens exactly if every directive and every bounded literal is on one
line. Such a token goes on over a line feed behind a backslash only. -/
theorem tokens_crlf_iff (dialect : Dialect) {text : List Char}
    (hreturn : '\r' ∉ text) :
    ((dialect.rules.tokens (crlf text) (dialect.rules.spans (crlf text))).map
          (fun t => (t.kind, lf t.text.toList))
        = (dialect.rules.tokens text (dialect.rules.spans text)).map
          (fun t => (t.kind, t.text.toList))
      ↔ ∀ t ∈ dialect.rules.tokens text (dialect.rules.spans text),
          dialect.rules.lineBound t = true → '\n' ∉ t.text.toList)
    ∧ ∀ t ∈ dialect.rules.tokens text (dialect.rules.spans text),
        dialect.rules.lineBound t = true → Text.Continued t.text.toList := by
  have hplain : dialect.rules.isPlain = true := by cases dialect <;> decide
  have hapart := dialect.boundsApart
  refine ⟨⟨?_, ?_⟩, fun t ht hbound =>
    hapart.lineBound_continued dialect.delimited hplain ht hbound⟩
  · intro hsame t ht hbound hmem
    -- the token's counterpart ends on its line, so it is the same text
    have hpair :=
      List.mem_map_of_mem (f := fun t : Token => (t.kind, t.text.toList)) ht
    rw [← hsame] at hpair
    obtain ⟨t', ht', heq⟩ := List.mem_map.1 hpair
    obtain ⟨hkind, htext⟩ := Prod.mk.inj heq
    have hbound' : dialect.rules.lineBound t' = true := by
      rw [Rules.lineBound_iff, ← htext, ← hkind] at hbound
      rw [Rules.lineBound_iff]
      exact hbound.imp_right fun ⟨hliteral, hopens⟩ =>
        ⟨hliteral, hopens.of_lf hplain⟩
    have hline := hapart.lineBound_line dialect.delimited hplain ht' hbound'
    rw [Text.lf_line hline] at htext
    exact hline (htext ▸ hmem)
  · intro hline
    rw [hapart.tokens_returned hplain hreturn hline, List.map_map]
    refine List.map_congr_left fun t ht => ?_
    have htext : '\r' ∉ t.text.toList := fun hmem =>
      hreturn
        (List.mem_of_mem_drop
          ((tokens_stand dialect.rules text t ht).subset hmem))
    simp only [Function.comp_apply, Token.returned, String.toList_ofList,
      Text.lf_crlf htext]

/-- A directive, a string over two lines, a comment and a word. -/
def stringOverLines : List Char := "#if X\ns = \"a\\\nb\"; // c\nt".toList

/-- A string may go on over a line feed behind a backslash and stays the token
it is, whatever ends the lines. -/
theorem string_over_lines_reads_same :
    '\r' ∉ stringOverLines
      ∧ (Dialect.cpp.rules.tokens (crlf stringOverLines)
          (Dialect.cpp.rules.spans (crlf stringOverLines))).map
          (fun t => (t.kind, lf t.text.toList))
        = (Dialect.cpp.rules.tokens stringOverLines
          (Dialect.cpp.rules.spans stringOverLines)).map
          (fun t => (t.kind, t.text.toList)) := by
  have hreturn : '\r' ∉ stringOverLines := by decide
  have hall : (Dialect.cpp.rules.tokens stringOverLines
      (Dialect.cpp.rules.spans stringOverLines)).all
      (fun t => !Dialect.cpp.rules.lineBound t || !t.text.toList.contains '\n')
        = true := by
    rw [Dialect.spans_eq]
    decide +kernel
  refine ⟨hreturn,
    (tokens_crlf_iff .cpp hreturn).1.2 fun t ht hbound hmem => ?_⟩
  have hline := List.all_eq_true.1 hall t ht
  rw [hbound, List.contains_iff_mem.2 hmem] at hline
  cases hline

/-- A directive that goes on behind a backslash. -/
def continuedDirective : List Char := "#define X \\\ny".toList

/-- A bounded literal with a backslash in front of a line feed. -/
def continuedLiteral : List Char := "'\\\n'".toList

/-- A directive that goes on behind a backslash ends at the carriage return, and
so does a bounded literal: the two texts have other tokens. -/
theorem continued_lines_lose_tokens :
    '\r' ∉ continuedDirective
      ∧ (Dialect.cpp.rules.tokens continuedDirective
          (Dialect.cpp.rules.spans continuedDirective)).map
            (fun t => (t.kind, t.text))
        = [(.directive, "#define X \\\ny")]
      ∧ (Dialect.cpp.rules.tokens (crlf continuedDirective)
          (Dialect.cpp.rules.spans (crlf continuedDirective))).map
            (fun t => (t.kind, t.text))
        = [(.directive, "#define X \\"), (.word, "y")]
      ∧ '\r' ∉ continuedLiteral
      ∧ (Dialect.rust.rules.tokens continuedLiteral
          (Dialect.rust.rules.spans continuedLiteral)).map
            (fun t => (t.kind, t.text))
        = [(.literal, "'\\\n'")]
      ∧ (Dialect.rust.rules.tokens (crlf continuedLiteral)
          (Dialect.rust.rules.spans (crlf continuedLiteral))).map
            (fun t => (t.kind, t.text))
        = [(.punct, "'"), (.punct, "\\"), (.punct, "'")] := by
  simp only [Dialect.spans_eq]
  decide +kernel

end Marginalia
