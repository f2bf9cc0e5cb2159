/-
Tokens of two texts with an empty line between them.

A token ends in front of white space, so the tokens of the stretch of code at
the seam are those of its two parts. Directives are another matter. One that
goes up to the end of the first text may take the first line feed with it, if
the text ends in a backslash, or give up a carriage return in front of it. It
never gets past the second line feed, and nothing of the first text starts
where the two ends differ, so all other tokens are as before
(`tokens_joined`).
-/
import Marginalia.Proofs.Span.Joined
import Marginalia.Proofs.Text.Joined
import Marginalia.Proofs.Token.Order
import Mathlib.Data.List.Basic
import Mathlib.Data.List.Find
import Mathlib.Data.List.Forall2

namespace Marginalia

-- ======================================================== code spans

theorem operators_visible : ∀ operator ∈ operators, ∀ c ∈ operator,
    Text.isBlank c = false := by
  have hall : (operators.all fun operator => operator.all (!Text.isBlank ·))
      = true := by
    decide +kernel
  intro operator hoperator c hc
  simpa using List.all_eq_true.1
    (List.all_eq_true.1 hall operator hoperator) c hc

/-- A token is the same, whatever follows the next line feed. -/
theorem tokenAt_joined (rest : List Char) (c : Char) (cs : List Char) :
    tokenAt c (cs ++ '\n' :: rest) = tokenAt c cs := by
  have hword : continuesWord '\n' = false := by
    rw [continuesWord, Text.isWordChar_newline]
    rfl
  have hnumber : continuesNumber '\n' = false := by
    rw [continuesNumber, Text.isWordChar_newline]
    rfl
  have hoperator : operators.find? (·.isPrefixOf (c :: (cs ++ '\n' :: rest)))
      = operators.find? (·.isPrefixOf (c :: cs)) :=
    List.find?_congr fun operator hmem =>
      isPrefixOf_joined (operators_visible operator hmem) rest (c :: cs)
  unfold tokenAt
  rw [takeWhile_joined hword, takeWhile_joined hnumber, hoperator]

/-- A token does not go past its text. -/
theorem tokenAt_length (c : Char) (cs : List Char) :
    (tokenAt c cs).2 ≤ cs.length := by
  unfold tokenAt
  split
  · exact (List.takeWhile_prefix _).length_le
  · split
    · exact (List.takeWhile_prefix _).length_le
    · split
      · next operator hfind =>
        have hstands : operator.isPrefixOf (c :: cs) = true := by
          simpa using List.find?_some hfind
        have hle := (List.isPrefixOf_iff_prefix.1 hstands).length_le
        rw [List.length_cons] at hle
        simp only
        omega
      · exact Nat.zero_le _

/-- A line feed parts tokens. -/
theorem codeTokens_joined (rest : List Char) (start : Nat) (cs : List Char) :
    codeTokens start (cs ++ '\n' :: rest)
      = codeTokens start cs ++ codeTokens (start + cs.length + 1) rest := by
  fun_induction codeTokens start cs with
  | case1 start =>
      rw [List.nil_append, codeTokens, if_pos (by decide)]
      rfl
  | case2 start c cs hblank ih =>
      rw [List.cons_append, codeTokens, if_pos hblank, ih, List.length_cons,
        Nat.add_right_comm start 1]
      rfl
  | case3 start c cs hblank kind more hat ih =>
      have hmore : more ≤ cs.length := by
        have hle := tokenAt_length c cs
        rw [hat] at hle
        exact hle
      rw [List.cons_append, codeTokens, if_neg hblank, tokenAt_joined, hat]
      simp only
      rw [List.take_append_of_le_length hmore,
        List.drop_append_of_le_length hmore, ih, List.length_drop,
        List.length_cons, show start + 1 + more + (cs.length - more) + 1
          = start + (cs.length + 1) + 1 by omega]
      rfl

/-- The tokens of code further on are its tokens, moved. -/
theorem codeTokens_moved (k start : Nat) (cs : List Char) :
    codeTokens (start + k) cs = (codeTokens start cs).map (·.moved k) := by
  fun_induction codeTokens start cs with
  | case1 start =>
      rw [codeTokens]
      rfl
  | case2 start c cs hblank ih =>
      rw [codeTokens, if_pos hblank, Nat.add_right_comm, ih]
  | case3 start c cs hblank kind more hat ih =>
      rw [codeTokens, if_neg hblank, hat]
      simp only
      rw [show start + k + 1 + more = start + 1 + more + k by omega, ih]
      rfl

/-- A span of code has the tokens of its characters, if it has any. -/
theorem codeSpan_tokens (start : Nat) (chars : List Char) :
    (codeSpan start chars).flatMap Span.tokens = codeTokens start chars := by
  unfold codeSpan
  cases chars with
  | nil =>
      rw [codeTokens]
      rfl
  | cons c cs => exact List.append_nil _

/-- So a moved span has moved tokens, whatever its kind. -/
theorem Span.moved_tokens (k : Nat) (span : Span) :
    (span.moved k).tokens = span.tokens.map (·.moved k) := by
  have hkind : (span.moved k).kind = span.kind := rfl
  unfold Span.tokens
  rw [hkind]
  split
  · exact codeTokens_moved k span.start span.chars
  · rfl
  · rfl

/-- The tokens of two texts with an empty line between them, directives
aside. -/
theorem spanTokens_joined {rules : Rules} (hplain : rules.isPlain = true)
    {a : List Char} (hclosed : ∀ span ∈ rules.spans a, span.unclosed = none)
    (b : List Char) :
    (rules.spans (a ++ '\n' :: '\n' :: b)).flatMap Span.tokens
      = (rules.spans a).flatMap Span.tokens
        ++ ((rules.spans b).flatMap Span.tokens).map
          (·.moved (a.length + 2)) := by
  obtain ⟨front, last, codeA, codeB, back, hspansA, hlast, hspansB, hspans⟩ :=
    spans_joined hplain hclosed b
  have hcode : codeTokens last (codeA ++ '\n' :: '\n' :: codeB)
      = codeTokens last codeA
        ++ (codeTokens 0 codeB).map (·.moved (a.length + 2)) := by
    rw [codeTokens_joined, codeTokens, if_pos (by decide), ← codeTokens_moved,
      show last + codeA.length + 1 + 1 = 0 + (a.length + 2) by omega]
  have hback : (back.map (·.moved (a.length + 2))).flatMap Span.tokens
      = (back.flatMap Span.tokens).map (·.moved (a.length + 2)) := by
    rw [List.flatMap_map, List.map_flatMap]
    exact List.flatMap_congr fun span _ => span.moved_tokens _
  rw [hspans, hspansA, hspansB, List.flatMap_append, List.flatMap_append,
    List.flatMap_append, List.flatMap_cons, codeSpan_tokens, codeSpan_tokens,
    hback, List.map_append]
  simp only [Span.tokens, hcode, List.append_assoc]

-- ==================================================== visible starts

/-- A character that is no white space stands at the offset. -/
def Text.VisibleAt (text : List Char) (offset : Nat) : Prop :=
  ∃ c, text[offset]? = some c ∧ Text.isBlank c = false

/-- A visible character is in the text. -/
theorem Text.VisibleAt.lt {text : List Char} {offset : Nat}
    (h : Text.VisibleAt text offset) :
    offset < text.length := by
  obtain ⟨c, hc, -⟩ := h
  exact (List.getElem?_eq_some_iff.1 hc).1

/-- It is as visible behind another text. -/
theorem Text.VisibleAt.back {back : List Char} {offset : Nat}
    (h : Text.VisibleAt back offset) (front : List Char) :
    Text.VisibleAt (front ++ back) (front.length + offset) := by
  obtain ⟨c, hc, hvisible⟩ := h
  refine ⟨c, ?_, hvisible⟩
  rw [List.getElem?_append_right (Nat.le_add_right _ _),
    Nat.add_sub_cancel_left, hc]

theorem Text.VisibleAt.front {front : List Char} {offset : Nat}
    (h : Text.VisibleAt front offset) (back : List Char) :
    Text.VisibleAt (front ++ back) offset := by
  have hlt := h.lt
  obtain ⟨c, hc, hvisible⟩ := h
  refine ⟨c, ?_, hvisible⟩
  rw [List.getElem?_append_left hlt, hc]

/-- Every token of code starts with a visible character. -/
theorem codeTokens_visible (start : Nat) (cs : List Char) :
    ∀ t ∈ codeTokens start cs, ∃ i,
      t.start = start + i ∧ Text.VisibleAt cs i := by
  fun_induction codeTokens start cs with
  | case1 start =>
      intro t ht
      cases ht
  | case2 start c cs hblank ih =>
      intro t ht
      obtain ⟨i, hi, hvisible⟩ := ih t ht
      exact ⟨1 + i, by omega, hvisible.back [c]⟩
  | case3 start c cs hblank kind more hat ih =>
      intro t ht
      rcases List.mem_cons.1 ht with rfl | ht
      · exact ⟨0, rfl, c, rfl, by simpa using hblank⟩
      · obtain ⟨i, hi, c', hc', hvisible⟩ := ih t ht
        refine ⟨more + i + 1, by omega, c', ?_, hvisible⟩
        rw [List.getElem?_cons_succ, ← List.getElem?_drop, hc']

/-- The tokens of a tiling start at visible characters, where literals do. -/
theorem Tiles.tokens_visible {offset : Nat} {spans : List Span}
    (h : Tiles offset spans) (hheads : ∀ span ∈ spans, span.kind ≠ .code →
      ∃ c, span.chars.head? = some c ∧ Text.isBlank c = false) :
    ∀ t ∈ spans.flatMap Span.tokens,
      ∃ i, t.start = offset + i
        ∧ Text.VisibleAt (spans.flatMap (·.chars)) i := by
  induction spans generalizing offset with
  | nil =>
      intro t ht
      cases ht
  | cons span spans ih =>
      intro t ht
      obtain ⟨rfl, hne, htail⟩ := h
      rw [List.flatMap_cons] at ht ⊢
      rcases List.mem_append.1 ht with ht | ht
      · unfold Span.tokens at ht
        split at ht
        · obtain ⟨i, hi, hvisible⟩ :=
            codeTokens_visible span.start span.chars t ht
          exact ⟨i, hi, hvisible.front _⟩
        · next kind hkind =>
          obtain ⟨c, hc, hvisible⟩ := hheads span List.mem_cons_self
            (by rw [hkind]; exact SpanKind.noConfusion)
          rw [List.mem_singleton.1 ht]
          refine ⟨0, rfl, Text.VisibleAt.front ⟨c, ?_, hvisible⟩ _⟩
          rw [← List.head?_eq_getElem?, hc]
        · cases ht
      · obtain ⟨i, hi, hvisible⟩ :=
          ih htail (fun s hs => hheads s (List.mem_cons_of_mem span hs)) t ht
        refine ⟨span.chars.length + i, ?_, hvisible.back _⟩
        rw [hi, Span.stop, Nat.add_assoc]

/-- The tokens of a text lie in it, and start at visible characters. -/
theorem spanTokens_visible {rules : Rules} (hplain : rules.isPlain = true)
    (text : List Char) :
    ∀ t ∈ (rules.spans text).flatMap Span.tokens,
      Text.VisibleAt text t.start ∧ t.stop ≤ text.length := by
  intro t ht
  have htiles := spans_tiles rules text
  refine ⟨?_, ?_⟩
  · obtain ⟨i, hi, hvisible⟩ := htiles.tokens_visible
      ((Rules.plain_of_isPlain hplain).spansFrom_heads 0 [] none text) t ht
    rw [spans_chars] at hvisible
    rw [hi, Nat.zero_add]
    exact hvisible
  · have hstop := (htiles.tokens_ordered.1 t ht).2.2
    rw [spans_end] at hstop
    exact hstop

-- ======================================================== directives

/-- Whether a place starts a line is asked of what stands in front of it. -/
theorem startsLine_front (front back : List Char) {offset : Nat}
    (h : offset ≤ front.length) :
    startsLine (front ++ back) offset = startsLine front offset := by
  rw [startsLine, startsLine, List.take_append_of_le_length h]

/-- What stands before the line feed in front of a text does not matter. -/
theorem startsLine_back (front back : List Char) (offset : Nat) :
    startsLine (front ++ '\n' :: '\n' :: back) (offset + (front.length + 2))
      = startsLine back offset := by
  have htake : (front ++ '\n' :: '\n' :: back).take
      (offset + (front.length + 2))
      = front ++ '\n' :: '\n' :: back.take offset := by
    rw [show offset + (front.length + 2) = front.length + (offset + 2) by omega,
      List.take_append, List.take_of_length_le (Nat.le_add_right _ _),
      Nat.add_sub_cancel_left, List.take_succ_cons, List.take_succ_cons]
  have hreverse : (front ++ '\n' :: '\n' :: back.take offset).reverse
      = (back.take offset).reverse ++ '\n' :: ('\n' :: front.reverse) := by
    simp
  rw [startsLine, startsLine, htake, hreverse, takeWhile_joined (by decide)]

/-- A line is no longer than what is left of the text. -/
theorem logicalLineLength_le (cs : List Char) :
    ∀ before, logicalLineLength before cs ≤ cs.length := by
  induction cs with
  | nil => intro before; exact Nat.le_refl _
  | cons c cs ih =>
      intro before
      have hle := ih c
      rw [logicalLineLength, List.length_cons]
      split
      · exact Nat.zero_le _
      · split
        · exact Nat.zero_le _
        · omega

/-- Where a logical line ends when an empty line follows the text: where it
did, or, if that was the end of the text, one character from there. -/
theorem logicalLineLength_joined (rest : List Char) (cs : List Char) :
    ∀ before, logicalLineLength before (cs ++ '\n' :: '\n' :: rest)
      = logicalLineLength before cs
      ∨ logicalLineLength before cs = cs.length
        ∧ (logicalLineLength before (cs ++ '\n' :: '\n' :: rest) = cs.length + 1
          ∨ logicalLineLength before (cs ++ '\n' :: '\n' :: rest) + 1
            = cs.length
            ∧ cs.getLast? = some '\r') := by
  induction cs with
  | nil =>
      intro before
      cases hbefore : before != '\\' with
      | true => exact Or.inl (by simp [logicalLineLength, hbefore])
      | false =>
          exact Or.inr ⟨rfl, Or.inl (by simp [logicalLineLength, hbefore])⟩
  | cons c cs ih =>
      intro before
      simp only [List.cons_append, logicalLineLength]
      by_cases hbreak : (c == '\n' && before != '\\') = true
      · simp only [hbreak, if_true, true_or]
      · simp only [hbreak, Bool.false_eq_true, if_false]
        cases cs with
        | nil =>
            by_cases hreturn : (c == '\r') = true
            · -- the carriage return is now in front of a line feed
              rw [beq_iff_eq.1 hreturn]
              exact Or.inr ⟨rfl, Or.inr ⟨rfl, rfl⟩⟩
            · simp only [hreturn, Bool.false_and, Bool.false_eq_true, if_false]
              rcases ih c with h | ⟨h, hline | ⟨hline, -⟩⟩
              · exact Or.inl (congrArg (· + 1) h)
              · exact Or.inr ⟨rfl, Or.inl (congrArg (· + 1) hline)⟩
              · exact absurd hline (Nat.succ_ne_zero _)
        | cons d cs =>
            simp only [List.cons_append, List.head?_cons]
            by_cases hreturn : (c == '\r' && some d == some '\n') = true
            · simp only [hreturn, if_true, true_or]
            · simp only [hreturn, Bool.false_eq_true, if_false]
              rcases ih c with h | ⟨h, hline | ⟨hline, hlast⟩⟩
              · exact Or.inl (congrArg (· + 1) h)
              · exact Or.inr ⟨congrArg (· + 1) h,
                  Or.inl (congrArg (· + 1) hline)⟩
              · refine Or.inr ⟨congrArg (· + 1) h,
                  Or.inr ⟨congrArg (· + 1) hline, ?_⟩⟩
                rw [List.getLast?_cons_cons, hlast]

/-- A directive ends with the line that its number sign starts. -/
theorem Token.directive_stop (text : List Char) (token : Token) :
    (token.directive text).stop
      = token.start + 1 + logicalLineLength '#'
        (text.drop (token.start + 1)) := by
  have hle := logicalLineLength_le (text.drop (token.start + 1)) '#'
  simp only [directive, stop, String.length_ofList, List.length_cons,
    List.length_take, Nat.min_eq_left hle]
  omega

theorem Token.directive_stop_le {text : List Char} {token : Token}
    (h : token.start < text.length) :
    (token.directive text).stop ≤ text.length := by
  have hle := logicalLineLength_le (text.drop (token.start + 1)) '#'
  rw [List.length_drop] at hle
  rw [Token.directive_stop]
  omega

/-- The tokens of a text lie in it. -/
theorem gatherDirectives_bounds {text : List Char} (directiveEnd : Nat)
    (tokens : List Token) :
    (∀ t ∈ tokens, t.start < text.length ∧ t.stop ≤ text.length) →
      ∀ t ∈ gatherDirectives text directiveEnd tokens,
        t.start < text.length ∧ t.stop ≤ text.length := by
  fun_induction gatherDirectives text directiveEnd tokens with
  | case1 => exact id
  | case2 directiveEnd token tokens hinside ih =>
      exact fun h => ih fun t ht => h t (List.mem_cons_of_mem token ht)
  | case3 directiveEnd token tokens hinside hdirective directive ih =>
      intro h t ht
      have hstart := (h token List.mem_cons_self).1
      rcases List.mem_cons.1 ht with rfl | ht
      · exact ⟨hstart, Token.directive_stop_le hstart⟩
      · exact ih (fun s hs => h s (List.mem_cons_of_mem token hs)) t ht
  | case4 directiveEnd token tokens hinside hdirective ih =>
      intro h t ht
      rcases List.mem_cons.1 ht with rfl | ht
      · exact h t List.mem_cons_self
      · exact ih (fun s hs => h s (List.mem_cons_of_mem token hs)) t ht

/-- Every token lies in the text. -/
theorem tokens_bounds {rules : Rules} (hplain : rules.isPlain = true)
    (text : List Char) :
    ∀ t ∈ rules.tokens text (rules.spans text),
      t.start < text.length ∧ t.stop ≤ text.length := by
  have hspans : ∀ t ∈ (rules.spans text).flatMap Span.tokens,
      t.start < text.length ∧ t.stop ≤ text.length := by
    intro t ht
    obtain ⟨hvisible, hstop⟩ := spanTokens_visible hplain text t ht
    exact ⟨hvisible.lt, hstop⟩
  unfold Rules.tokens
  simp only
  split
  · exact gatherDirectives_bounds 0 _ hspans
  · exact hspans

-- --------------------------------------------------- the second text

/-- A directive of the second text has the same line there and further on. -/
theorem Token.directive_back (front back : List Char) (token : Token) :
    (token.moved (front.length + 2)).directive (front ++ '\n' :: '\n' :: back)
      = (token.directive back).moved (front.length + 2) := by
  simp only [directive, Token.moved_start, Nat.add_right_comm token.start _ 1,
    Text.drop_back]
  rfl

/-- The directives of the second text, if no directive of the first goes into
it. -/
theorem gatherDirectives_back (front back : List Char) (directiveEnd : Nat)
    (tokens : List Token) :
    ∀ directiveEnd', max (front.length + 2) directiveEnd'
      = directiveEnd + (front.length + 2) →
      gatherDirectives (front ++ '\n' :: '\n' :: back) directiveEnd'
          (tokens.map (·.moved (front.length + 2)))
        = (gatherDirectives back directiveEnd tokens).map
          (·.moved (front.length + 2)) := by
  fun_induction gatherDirectives back directiveEnd tokens with
  | case1 =>
      intro directiveEnd' _
      rfl
  | case2 directiveEnd token tokens hinside ih =>
      intro directiveEnd' hend
      rw [List.map_cons, gatherDirectives, Token.moved_start, if_pos (by omega)]
      exact ih directiveEnd' hend
  | case3 directiveEnd token tokens hinside hdirective directive ih =>
      intro directiveEnd' hend
      rw [List.map_cons, gatherDirectives, Token.moved_start, if_neg (by omega),
        startsLine_back]
      simp only [Token.moved_text, Token.moved_kind, hdirective, if_true,
        Token.directive_back, Token.moved_stop, List.map_cons]
      rw [ih _ (Nat.max_eq_right (Nat.le_add_left _ _))]
  | case4 directiveEnd token tokens hinside hdirective ih =>
      intro directiveEnd' hend
      rw [List.map_cons, gatherDirectives, Token.moved_start, if_neg (by omega),
        startsLine_back]
      simp only [Token.moved_text, Token.moved_kind, hdirective,
        Bool.false_eq_true, if_false, List.map_cons]
      rw [ih directiveEnd' hend]

-- ---------------------------------------------------- the first text

/-- A token of a text and that of the text with an empty line and more behind
it: the same, or a directive that goes up to the end of the text in both. -/
inductive Token.Stays (rules : Rules) (limit : Nat) : Token → Token → Prop where
  | same (token : Token) (start : token.start < limit)
    (stop : token.stop ≤ limit) :
    Token.Stays rules limit token token
  | directive (token token' : Token) (kind : token.kind = .directive)
      (kind' : token'.kind = .directive)
      (preprocessor : rules.preprocessor = true)
      (start : token.start < limit) (start' : token'.start = token.start)
      (stop : limit ≤ token.stop + 1) (stop' : limit ≤ token'.stop + 1)
      (near : token'.stop ≤ limit + 1) :
    Token.Stays rules limit token token'

/-- A token of the first text ends at most one character behind it, where a
directive takes in the line feed. -/
theorem Token.Stays.near {rules : Rules} {limit : Nat} {token token' : Token}
    (h : Token.Stays rules limit token token') : token'.stop ≤ limit + 1 := by
  cases h with
  | same _ stop => exact Nat.le_succ_of_le stop
  | directive _ _ _ _ _ _ _ _ near => exact near

/-- A directive stays, and where it does not, nothing visible starts between
its two ends. -/
theorem Token.directive_front {rules : Rules}
    (hpreprocessor : rules.preprocessor = true) (front back : List Char)
    {token : Token} (hstart : token.start < front.length) :
    Token.Stays rules front.length (token.directive front)
        (token.directive (front ++ '\n' :: '\n' :: back))
      ∧ ((token.directive (front ++ '\n' :: '\n' :: back)).stop
        = (token.directive front).stop
        ∨ ∀ offset, Text.VisibleAt front offset →
        offset < (token.directive front).stop
          ∧ offset
            < (token.directive (front ++ '\n' :: '\n' :: back)).stop) := by
  have hdrop : (front ++ '\n' :: '\n' :: back).drop (token.start + 1)
      = front.drop (token.start + 1) ++ '\n' :: '\n' :: back :=
    List.drop_append_of_le_length hstart
  have hstop := Token.directive_stop front token
  have hstop' := Token.directive_stop (front ++ '\n' :: '\n' :: back) token
  rw [hdrop] at hstop'
  have hlength : (front.drop (token.start + 1)).length
      = front.length - (token.start + 1) :=
    List.length_drop
  rcases logicalLineLength_joined back (front.drop (token.start + 1)) '#' with
    h | ⟨h, hline | ⟨hline, hlast⟩⟩
  · -- the line ends where it did
    have hsame : token.directive (front ++ '\n' :: '\n' :: back)
        = token.directive front := by
      rw [directive, directive]
      simp only [hdrop, h,
        List.take_append_of_le_length (logicalLineLength_le _ _)]
    rw [hsame]
    exact ⟨.same _ hstart (Token.directive_stop_le hstart), Or.inl rfl⟩
  · -- the line takes the first line feed with it
    refine ⟨.directive _ _ rfl rfl hpreprocessor hstart rfl ?_ ?_ ?_,
      Or.inr fun offset hoffset => ?_⟩
    · omega
    · omega
    · omega
    · have hlt := hoffset.lt
      omega
  · -- the line gives up its carriage return
    refine ⟨.directive _ _ rfl rfl hpreprocessor hstart rfl ?_ ?_ ?_,
      Or.inr fun offset hoffset => ?_⟩
    · omega
    · omega
    · omega
    · have hlt := hoffset.lt
      have hreturn : front.getLast? = some '\r' := by
        rw [List.getLast?_drop] at hlast
        split at hlast
        · cases hlast
        · exact hlast
      have hne : offset ≠ front.length - 1 := by
        rintro rfl
        obtain ⟨c, hc, hvisible⟩ := hoffset
        rw [← List.getLast?_eq_getElem?, hreturn] at hc
        injection hc with hc
        rw [← hc] at hvisible
        exact absurd hvisible (by decide)
      omega

/-- Two ends of a directive between which none of the tokens starts. -/
def SameEnd (tokens : List Token) (directiveEnd directiveEnd' : Nat) : Prop :=
  directiveEnd' = directiveEnd
    ∨ ∀ t ∈ tokens, t.start < directiveEnd ∧ t.start < directiveEnd'

/-- The first of the tokens lies in both directives or in neither. -/
theorem SameEnd.head {token : Token} {tokens : List Token}
    {directiveEnd directiveEnd' : Nat}
    (h : SameEnd (token :: tokens) directiveEnd directiveEnd') :
    token.start < directiveEnd' ↔ token.start < directiveEnd := by
  rcases h with h | h
  · rw [h]
  · obtain ⟨hinside, hinside'⟩ := h token List.mem_cons_self
    exact iff_of_true hinside' hinside

theorem SameEnd.tail {token : Token} {tokens : List Token}
    {directiveEnd directiveEnd' : Nat}
    (h : SameEnd (token :: tokens) directiveEnd directiveEnd') :
    SameEnd tokens directiveEnd directiveEnd' :=
  h.imp_right fun h t ht => h t (List.mem_cons_of_mem token ht)

/-- The directives of the first text, with the tokens of the second still to
come. -/
theorem gatherDirectives_front {rules : Rules}
    (hpreprocessor : rules.preprocessor = true) (front back : List Char)
    (after : List Token) (directiveEnd : Nat) (tokens : List Token) :
    ∀ directiveEnd', directiveEnd' ≤ front.length + 1 →
      SameEnd tokens directiveEnd directiveEnd' →
      (∀ t ∈ tokens, Text.VisibleAt front t.start ∧ t.stop ≤ front.length) →
      ∃ tokens' last, last ≤ front.length + 1
        ∧ gatherDirectives (front ++ '\n' :: '\n' :: back) directiveEnd'
          (tokens ++ after)
          = tokens' ++ gatherDirectives (front ++ '\n' :: '\n' :: back)
            last after
        ∧ List.Forall₂ (Token.Stays rules front.length)
          (gatherDirectives front directiveEnd tokens) tokens' := by
  fun_induction gatherDirectives front directiveEnd tokens with
  | case1 directiveEnd =>
      intro directiveEnd' hnear _ _
      exact ⟨[], directiveEnd', hnear, rfl, .nil⟩
  | case2 directiveEnd token tokens hinside ih =>
      intro directiveEnd' hnear hend hin
      rw [List.cons_append, gatherDirectives, if_pos (hend.head.2 hinside)]
      exact ih directiveEnd' hnear hend.tail fun t ht =>
        hin t (List.mem_cons_of_mem token ht)
  | case3 directiveEnd token tokens hinside hdirective directive ih =>
      intro directiveEnd' hnear hend hin
      have hstart := (hin token List.mem_cons_self).1.lt
      obtain ⟨hstays, hends⟩ :=
        Token.directive_front hpreprocessor front back hstart
      -- only what is visible starts a token, so the tokens behind see one end
      obtain ⟨tokens', last, hlast, hgather, hall⟩ := ih
        (token.directive (front ++ '\n' :: '\n' :: back)).stop hstays.near
        (hends.imp_right fun h t ht =>
          h t.start (hin t (List.mem_cons_of_mem token ht)).1)
        fun t ht => hin t (List.mem_cons_of_mem token ht)
      refine ⟨_ :: tokens', last, hlast, ?_, .cons hstays hall⟩
      rw [List.cons_append, gatherDirectives, if_neg (mt hend.head.1 hinside),
        startsLine_front front _ (Nat.le_of_lt hstart), if_pos hdirective]
      simp only
      rw [hgather]
      rfl
  | case4 directiveEnd token tokens hinside hdirective ih =>
      intro directiveEnd' hnear hend hin
      obtain ⟨hvisible, hstop⟩ := hin token List.mem_cons_self
      obtain ⟨tokens', last, hlast, hgather, hall⟩ :=
        ih directiveEnd' hnear hend.tail
        fun t ht => hin t (List.mem_cons_of_mem token ht)
      refine ⟨token :: tokens', last, hlast, ?_,
        .cons (.same token hvisible.lt hstop) hall⟩
      rw [List.cons_append, gatherDirectives, if_neg (mt hend.head.1 hinside),
        startsLine_front front _ (Nat.le_of_lt hvisible.lt), if_neg hdirective,
        hgather]
      rfl

/-- The tokens of two texts with an empty line between them. -/
theorem tokens_joined {rules : Rules} (hplain : rules.isPlain = true)
    {a : List Char} (hclosed : ∀ span ∈ rules.spans a, span.unclosed = none)
    (b : List Char) :
    ∃ front, rules.tokens (a ++ '\n' :: '\n' :: b)
      (rules.spans (a ++ '\n' :: '\n' :: b))
        = front ++ (rules.tokens b (rules.spans b)).map (·.moved (a.length + 2))
      ∧ List.Forall₂ (Token.Stays rules a.length)
        (rules.tokens a (rules.spans a)) front := by
  have hvisible := spanTokens_visible hplain a
  unfold Rules.tokens
  simp only [spanTokens_joined hplain hclosed b]
  by_cases hpreprocessor : rules.preprocessor = true
  · simp only [hpreprocessor, if_true]
    obtain ⟨front, last, hlast, hgather, hall⟩ :=
      gatherDirectives_front hpreprocessor a b
      (((rules.spans b).flatMap Span.tokens).map (·.moved (a.length + 2))) 0 _ 0
      (Nat.zero_le _) (Or.inl rfl) hvisible
    refine ⟨front, ?_, hall⟩
    rw [hgather, gatherDirectives_back a b 0 _ last (by omega)]
  · simp only [hpreprocessor, Bool.false_eq_true, if_false]
    refine ⟨_, rfl, List.forall₂_same.2 fun t ht => ?_⟩
    obtain ⟨hstart, hstop⟩ := hvisible t ht
    exact .same t hstart.lt hstop

end Marginalia
