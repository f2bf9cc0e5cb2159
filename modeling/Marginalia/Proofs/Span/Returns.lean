/-
Comments and literals of a text whose lines end in a carriage return and a
line feed.

Delimiters hold no white space, so they stand where they stood. A block comment
ends where it did, and so does a literal without a bound: the carriage return
that an escape takes along in place of the line feed makes no difference. A
line comment has the carriage return as its last character. The one exception
is a bounded literal that escapes a line feed. The escape takes the carriage
return, the line feed behind it is out of bounds, and the literal's opener is
code (`Lexeme.Returned`).
-/
import Marginalia.Proofs.Span.Described
import Marginalia.Proofs.Span.Joined
import Marginalia.Proofs.Text.Returns

namespace Marginalia

open Text (crlf crlf_nil crlf_newline crlf_cons crlf_append crlf_line
  isPrefixOf_crlf)

-- ======================================================== delimiters

namespace Delimiter

variable {d : Delimiter}

/-- A delimiter starts at a place if and only if it starts there once the line
feeds have carriage returns in front of them. -/
theorem startsAt_crlf (hd : d.isPlain = true) (cs : List Char) :
    d.startsAt (crlf cs) = d.startsAt cs :=
  isPrefixOf_crlf (isPlain_iff.1 hd).2 cs

/-- So it opens something in both texts or in neither. -/
theorem opensAt_crlf (hd : d.isPlain = true) (cs : List Char) :
    d.opensAt (crlf cs) = d.opensAt cs := by
  rw [opensAt, opensAt, startsAt_crlf hd]

/-- A delimiter is on one line. -/
theorem line (hd : d.isPlain = true) : '\n' ∉ d.chars := fun hmem =>
  absurd ((isPlain_iff.1 hd).2 _ hmem) (by decide)

theorem crlf_chars (hd : d.isPlain = true) : crlf d.chars = d.chars :=
  crlf_line (line hd)

/-- No delimiter stands at white space. -/
theorem startsAt_blank (hd : d.isPlain = true) {c : Char}
    (hc : Text.isBlank c = true) (cs : List Char) :
    d.startsAt (c :: cs) = false := by
  rw [Bool.eq_false_iff]
  intro h
  have hopens : d.opensAt (c :: cs) = true := by
    have hempty : d.isEmpty = false :=
      List.isEmpty_eq_false_iff.2 (isPlain_iff.1 hd).1
    rw [opensAt, hempty, h]
    rfl
  rw [opensAt_head hd hopens] at hc
  cases hc

/-- A plain delimiter does not start with white space, so the search for it
steps over a blank. -/
theorem find?_blank (hd : d.isPlain = true) {c : Char}
    (hc : Text.isBlank c = true) (cs : List Char) :
    d.find? (c :: cs) = (d.find? cs).map (· + 1) := by
  rw [find?, startsAt_blank hd hc, if_neg Bool.false_ne_true]

end Delimiter

-- ========================================================== comments

/-- An end that was found in a text, and one that was found in it with carriage
returns, at the same place or nowhere. -/
inductive Ends (cs : List Char) : Option Nat → Option Nat → Prop where
  | nowhere : Ends cs none none
  | found (n : Nat) : Ends cs (some n) (some (crlf (cs.take n)).length)

/-- The ends move by as much as is put in front of them in each text. -/
theorem Ends.behind {cs : List Char} {a b : Option Nat} (h : Ends cs a b)
    (front : List Char) :
    Ends (front ++ cs) (a.map (· + front.length))
      (b.map (· + (crlf front).length)) := by
  cases h with
  | nowhere => exact .nowhere
  | found n =>
      have htake : (front ++ cs).take (n + front.length)
          = front ++ cs.take n := by
        rw [Nat.add_comm, List.take_length_add_append]
      have hfound : Ends (front ++ cs) _ _ := .found (n + front.length)
      rw [htake, crlf_append, List.length_append,
        Nat.add_comm (crlf front).length] at hfound
      exact hfound

/-- A plain delimiter has no line feed, so both ends move by its length. -/
theorem Ends.behind_delimiter {cs : List Char} {a b : Option Nat}
    (h : Ends cs a b) {d : Delimiter} (hd : d.isPlain = true) :
    Ends (d.chars ++ cs) (a.map (· + d.length)) (b.map (· + d.length)) := by
  have hends := h.behind d.chars
  rw [Delimiter.crlf_chars hd] at hends
  exact hends

/-- Any character but the line feed moves both ends by one. -/
theorem Ends.behind_char {cs : List Char} {a b : Option Nat} (h : Ends cs a b)
    {c : Char} (hc : c ≠ '\n') :
    Ends (c :: cs) (a.map (· + 1)) (b.map (· + 1)) := by
  have hends := h.behind [c]
  rw [crlf_cons hc] at hends
  exact hends

/-- A line feed moves the second end by one more. -/
theorem Ends.behind_newline {cs : List Char} {a b : Option Nat}
    (h : Ends cs a b) :
    Ends ('\n' :: cs) (a.map (· + 1)) ((b.map (· + 1)).map (· + 1)) := by
  rw [Option.map_map]
  exact h.behind ['\n']

/-- An end behind a plain delimiter is at the same place in both. -/
theorem Ends.at_delimiter {d : Delimiter} (hd : d.isPlain = true)
    (cs : List Char) :
    Ends (d.chars ++ cs) (some d.length) (some d.length) := by
  have hfound : Ends (d.chars ++ cs) _ _ := .found d.length
  rw [Delimiter.length, List.take_left, Delimiter.crlf_chars hd] at hfound
  exact hfound

/-- The first closer, and the place behind it. -/
theorem Delimiter.find?_ends {d : Delimiter} (hd : d.isPlain = true)
    (cs : List Char) :
    Ends cs ((d.find? cs).map (· + d.length))
      ((d.find? (crlf cs)).map (· + d.length)) := by
  have hcomm : ∀ a : Option Nat,
      (a.map (· + 1)).map (· + d.length)
        = (a.map (· + d.length)).map (· + 1) := by
    intro a
    cases a with
    | none => rfl
    | some n => simp only [Option.map_some, Nat.add_right_comm]
  induction cs with
  | nil =>
      have hempty : d.isEmpty = false :=
        List.isEmpty_eq_false_iff.2 (isPlain_iff.1 hd).1
      rw [crlf_nil, find?, hempty]
      exact .nowhere
  | cons c cs ih =>
      by_cases hc : c = '\n'
      · subst hc
        rw [crlf_newline, find?_blank hd (by decide),
          find?_blank hd (by decide), find?_blank hd (by decide), hcomm,
          hcomm, hcomm]
        exact ih.behind_newline
      · rw [crlf_cons hc, find?, find?, ← crlf_cons hc, startsAt_crlf hd]
        split
        · next hstarts =>
          obtain ⟨rest, hrest⟩ := startsAt_iff.1 hstarts
          rw [Option.map_some, Nat.zero_add, ← hrest]
          exact .at_delimiter hd rest
        · rw [hcomm, hcomm]
          exact ih.behind_char hc

namespace Rules

variable {rules : Rules}

/-- A blank opens and closes no block comment, so it only counts. -/
theorem nestedLength?_blank (hcloser : rules.blockCloser.isPlain = true)
    (hopener : rules.blockOpener.isPlain = true) (depth : Nat) {c : Char}
    (hc : Text.isBlank c = true) (cs : List Char) :
    rules.nestedLength? depth (c :: cs)
      = (rules.nestedLength? depth cs).map (· + 1) := by
  refine nestedLength?_char (Delimiter.isPlain_iff.1 hopener).1 depth ?_ ?_
  · rw [← Delimiter.startsAt_iff, Delimiter.startsAt_blank hcloser hc]
    exact Bool.false_ne_true
  · rw [← Delimiter.startsAt_iff, Delimiter.startsAt_blank hopener hc]
    exact Bool.false_ne_true

/-- A nested comment ends at the same place with carriage returns and without.
The induction is on the characters; a line feed is the only one that the second
search sees twice. -/
theorem nestedLength?_ends (hcloser : rules.blockCloser.isPlain = true)
    (hopener : rules.blockOpener.isPlain = true) (depth : Nat)
    (cs : List Char) :
    Ends cs (rules.nestedLength? depth cs)
      (rules.nestedLength? depth (crlf cs)) := by
  obtain ⟨hcloserNe, -⟩ := Delimiter.isPlain_iff.1 hcloser
  obtain ⟨hopenerNe, -⟩ := Delimiter.isPlain_iff.1 hopener
  fun_induction Rules.nestedLength? rules depth cs with
  | case1 depth =>
      rw [crlf_nil, nestedLength?]
      exact .nowhere
  | case2 c cs hcloses =>
      obtain ⟨rest, hrest⟩ := Delimiter.startsAt_iff.1 hcloses
      rw [← hrest, crlf_append, Delimiter.crlf_chars hcloser,
        nestedLength?_closer hcloserNe]
      exact .at_delimiter hcloser rest
  | case3 c cs hcloses d ih =>
      obtain ⟨rest, hrest⟩ := Delimiter.startsAt_iff.1 hcloses
      rw [Delimiter.drop_chars hcloserNe hrest] at ih ⊢
      rw [← hrest, crlf_append, Delimiter.crlf_chars hcloser,
        nestedLength?_leave hcloserNe]
      exact ih.behind_delimiter hcloser
  | case4 depth c cs hcloses hopens ih =>
      obtain ⟨rest, hrest⟩ := (Delimiter.opensAt_iff hopenerNe).1 hopens
      have hunclosed : ¬ rules.blockCloser.chars <+: rules.blockOpener.chars
          ++ crlf rest := by
        rw [← Delimiter.crlf_chars hopener, ← crlf_append, hrest,
          ← Delimiter.startsAt_iff, Delimiter.startsAt_crlf hcloser]
        exact hcloses
      rw [Delimiter.drop_chars hopenerNe hrest] at ih ⊢
      rw [← hrest, crlf_append, Delimiter.crlf_chars hopener,
        nestedLength?_enter hopenerNe _ hunclosed]
      exact ih.behind_delimiter hopener
  | case5 depth c cs hcloses hopens ih =>
      by_cases hc : c = '\n'
      · subst hc
        rw [crlf_newline, nestedLength?_blank hcloser hopener depth (by decide),
          nestedLength?_blank hcloser hopener depth (by decide)]
        exact ih.behind_newline
      · rw [crlf_cons hc, nestedLength?_char hopenerNe]
        · exact ih.behind_char hc
        · rw [← crlf_cons hc, ← Delimiter.startsAt_iff,
            Delimiter.startsAt_crlf hcloser]
          exact hcloses
        · rw [← crlf_cons hc, ← Delimiter.opensAt_iff hopenerNe,
            Delimiter.opensAt_crlf hopener]
          exact hopens

/-- So does a block comment, whether its rules nest or not. -/
theorem blockBodyLength?_ends (hcloser : rules.blockCloser.isPlain = true)
    (hopener : rules.blockOpener.isPlain = true) (body : List Char) :
    Ends body (rules.blockBodyLength? body)
      (rules.blockBodyLength? (crlf body)) := by
  unfold blockBodyLength?
  split
  · exact nestedLength?_ends hcloser hopener 0 body
  · exact Delimiter.find?_ends hcloser body

end Rules

-- ========================================================== literals

/-- The end of a literal's body in a text, and in it with carriage returns. A
bounded literal that escapes a line feed closes in the one and is out of bounds
in the other. -/
inductive BodyEnd.Returned (rule : LiteralRule) (offset offset' : Nat)
    (cs : List Char) : BodyEnd → BodyEnd → Prop where
  | closer (n : Nat) (stands : rule.closer.chars <+: cs.drop n)
    (line : rule.maxLength.isSome = true → '\n' ∉ cs.take n) :
    BodyEnd.Returned rule offset offset' cs (.closer (offset + n))
      (.closer (offset' + (crlf (cs.take n)).length))
  | broken (n : Nat) (bounded : rule.maxLength.isSome = true)
    (stands : rule.closer.chars <+: cs.drop n) (breaks : '\n' ∈ cs.take n) :
    BodyEnd.Returned rule offset offset' cs (.closer (offset + n)) .outOfBounds
  | declined {a b : BodyEnd} (bounded : rule.maxLength.isSome = true)
    (ha : ∀ n, a ≠ .closer n)
    (hb : ∀ n, b ≠ .closer n) : BodyEnd.Returned rule offset offset' cs a b
  | endOfText (unbounded : rule.maxLength = none) :
    BodyEnd.Returned rule offset offset' cs .endOfText .endOfText

/-- At the end of the text a bounded literal is none and any other goes to the
end, in both texts. -/
theorem BodyEnd.Returned.atEnd (rule : LiteralRule) (offset offset' : Nat)
    (cs : List Char) :
    BodyEnd.Returned rule offset offset' cs .endOfText .endOfText := by
  cases hmax : rule.maxLength with
  | none => exact .endOfText hmax
  | some limit =>
      exact .declined (by rw [hmax]; rfl) (fun _ => BodyEnd.noConfusion)
        fun _ => BodyEnd.noConfusion

/-- The end of a body, behind characters that hold no line feed if the literal
is bounded. -/
theorem BodyEnd.Returned.behind {rule : LiteralRule} {offset offset' : Nat}
    {cs : List Char} {a b : BodyEnd} (front : List Char)
    (h : BodyEnd.Returned rule (offset + front.length)
      (offset' + (crlf front).length) cs a b)
    (hfront : rule.maxLength.isSome = true → '\n' ∉ front) :
    BodyEnd.Returned rule offset offset' (front ++ cs) a b := by
  have htake : ∀ n, (front ++ cs).take (front.length + n)
      = front ++ cs.take n := fun n =>
    List.take_length_add_append n
  have hdrop : ∀ n, (front ++ cs).drop (front.length + n) = cs.drop n :=
    fun n => List.drop_length_add_append n
  cases h with
  | closer n stands line =>
      have hcloser : BodyEnd.Returned rule offset offset' (front ++ cs) _ _ :=
        .closer (front.length + n) (by rw [hdrop]; exact stands)
          fun hbounded => by
          rw [htake, List.mem_append, not_or]
          exact ⟨hfront hbounded, line hbounded⟩
      rw [htake, crlf_append, List.length_append, ← Nat.add_assoc,
        ← Nat.add_assoc] at hcloser
      exact hcloser
  | broken n bounded stands breaks =>
      rw [Nat.add_assoc]
      refine .broken _ bounded (by rw [hdrop]; exact stands) ?_
      rw [htake]
      exact List.mem_append_right front breaks
  | declined bounded ha hb => exact .declined bounded ha hb
  | endOfText unbounded => exact .endOfText unbounded

namespace LiteralRule

variable {rule : LiteralRule}

/-- A bounded literal is out of bounds at the end of its line. -/
theorem exceeds_newline (hbounded : rule.maxLength.isSome = true)
    (offset : Nat) :
    rule.exceeds offset '\n' = true := by
  obtain ⟨limit, hlimit⟩ := Option.isSome_iff_exists.1 hbounded
  simp [exceeds, hlimit]

/-- A literal without a bound is never out of bounds. -/
theorem exceeds_unbounded (hmax : rule.maxLength = none) (offset : Nat)
    (c : Char) :
    rule.exceeds offset c = false := by
  rw [exceeds, hmax]

/-- White space that is in bounds is content. -/
theorem bodyEnd_blank (hplain : rule.isPlain = true) {c : Char}
    (hc : Text.isBlank c = true) {offset : Nat}
    (hwithin : rule.exceeds offset c = false) (cs : List Char) :
    rule.bodyEnd offset (c :: cs) = rule.bodyEnd (offset + 1) cs := by
  obtain ⟨-, hcloser, -, hescape⟩ := isPlain_parts hplain
  have hunescaped : (rule.escape == some [c]) = false := by
    rcases hescape with h | h
    · rw [h]
      rfl
    · rw [h, beq_eq_false_iff_ne]
      intro heq
      injection heq with heq
      injection heq with heq
      rw [← heq] at hc
      exact absurd hc (by decide)
  rw [bodyEnd, hwithin, hunescaped, Delimiter.startsAt_blank hcloser hc]
  simp only [Bool.false_eq_true, if_false]

/-- What follows an escape that is in bounds. -/
theorem bodyEnd_escape {c : Char} (hescape : rule.escape = some [c])
    {offset : Nat} (hwithin : rule.exceeds offset c = false) (cs : List Char) :
    rule.bodyEnd offset (c :: cs) = rule.bodyEnd (offset + 2) (cs.drop 1) := by
  rw [bodyEnd, hwithin, hescape]
  simp

/-- A closer is doubled by plain characters, so in both texts or in neither. -/
theorem doublesCloser_crlf (hcloser : rule.closer.isPlain = true)
    (cs : List Char) :
    rule.doublesCloser (crlf cs) = rule.doublesCloser cs := by
  have hblank : ∀ c ∈ rule.closer.chars ++ rule.closer.chars,
      Text.isBlank c = false := by
    intro c hc
    rcases List.mem_append.1 hc with hc | hc
    · exact (Delimiter.isPlain_iff.1 hcloser).2 c hc
    · exact (Delimiter.isPlain_iff.1 hcloser).2 c hc
  rw [doublesCloser, doublesCloser, isPrefixOf_crlf hblank]

/-- A closer that was found stands where it was found. -/
theorem bodyEnd_closer (hcloser : rule.closer.chars ≠ []) {offset stop : Nat}
    {cs : List Char} (h : rule.bodyEnd offset cs = .closer stop) :
    ∃ n, stop = offset + n ∧ rule.closer.chars <+: cs.drop n := by
  obtain ⟨content, rest, rfl, -, hcloses, hstop⟩ :=
    bodyEnd_passes hcloser offset cs h
  refine ⟨content.length, hstop, ?_⟩
  rw [List.drop_left]
  exact hcloses.closer

/-- Behind an escaped line feed a bounded literal has a carriage return less and
a line feed that is out of bounds. -/
theorem bodyEnd_broken (hcloser : rule.closer.chars ≠ [])
    (hbounded : rule.maxLength.isSome = true) (offset offset' : Nat) (e : Char)
    (cs : List Char) :
    BodyEnd.Returned rule offset offset' (e :: '\n' :: cs)
      (rule.bodyEnd (offset + 2) cs) .outOfBounds := by
  cases hend : rule.bodyEnd (offset + 2) cs with
  | closer stop =>
      obtain ⟨n, rfl, hstands⟩ := bodyEnd_closer hcloser hend
      rw [Nat.add_assoc, Nat.add_comm 2]
      exact .broken (n + 2) hbounded hstands (by simp)
  | outOfBounds =>
      exact .declined hbounded (fun _ => BodyEnd.noConfusion) fun _ =>
        BodyEnd.noConfusion
  | endOfText =>
      exact .declined hbounded (fun _ => BodyEnd.noConfusion) fun _ =>
        BodyEnd.noConfusion

/-- A bounded literal is at the same offset in both texts, and exceeds its bound
in both. -/
theorem exceeds_level {offset offset' : Nat}
    (hoffset : rule.maxLength.isSome = true → offset' = offset) (c : Char) :
    rule.exceeds offset' c = rule.exceeds offset c := by
  cases hmax : rule.maxLength with
  | none => rw [exceeds_unbounded hmax, exceeds_unbounded hmax]
  | some limit => rw [hoffset (by rw [hmax]; rfl)]

/-- What exceeds the bound in a text does so in it with carriage returns. -/
theorem exceeds_returned (hplain : rule.isPlain = true) {offset offset' : Nat}
    {c : Char} (hoffset : rule.maxLength.isSome = true → offset' = offset)
    (hexceeds : rule.exceeds offset c = true) (cs : List Char) :
    BodyEnd.Returned rule offset offset' (c :: cs) .outOfBounds
      (rule.bodyEnd offset' (crlf (c :: cs))) := by
  have hbounded : rule.maxLength.isSome = true := by
    cases hmax : rule.maxLength with
    | none => rw [exceeds_unbounded hmax] at hexceeds; cases hexceeds
    | some limit => rfl
  have hout : rule.bodyEnd offset' (crlf (c :: cs)) = .outOfBounds := by
    by_cases hc : c = '\n'
    · subst hc
      rw [crlf_newline]
      by_cases hreturn : rule.exceeds offset' '\r' = true
      · rw [bodyEnd, if_pos hreturn]
      · rw [bodyEnd_blank hplain (by decide) (by simpa using hreturn),
          bodyEnd_newline hbounded]
    · rw [crlf_cons hc, bodyEnd, exceeds_level hoffset, if_pos hexceeds]
  rw [hout]
  exact .declined hbounded (fun _ => BodyEnd.noConfusion) fun _ =>
    BodyEnd.noConfusion

/-- An escape takes along a line feed, or else its carriage return; a bounded
literal then meets the line feed. -/
theorem escape_returned (hplain : rule.isPlain = true) {offset offset' : Nat}
    {c : Char} {cs : List Char}
    (hoffset : rule.maxLength.isSome = true → offset' = offset)
    (hexceeds : rule.exceeds offset c = false)
    (hescape : rule.escape = some [c])
    (hnext : ∀ after, (rule.maxLength.isSome = true → after = offset + 2) →
      BodyEnd.Returned rule (offset + 2) after (cs.drop 1)
        (rule.bodyEnd (offset + 2) (cs.drop 1))
        (rule.bodyEnd after (crlf (cs.drop 1)))) :
    BodyEnd.Returned rule offset offset' (c :: cs)
      (rule.bodyEnd (offset + 2) (cs.drop 1))
      (rule.bodyEnd offset' (crlf (c :: cs))) := by
  obtain ⟨-, hcloser, -, hescapes⟩ := isPlain_parts hplain
  have hc : c ≠ '\n' := by
    rintro rfl
    rcases hescapes with h | h <;> rw [h] at hescape <;> cases hescape
  rw [← exceeds_level hoffset] at hexceeds
  rw [crlf_cons hc, bodyEnd_escape hescape hexceeds]
  cases cs with
  | nil =>
      rw [crlf_nil, List.drop_nil, bodyEnd, bodyEnd]
      exact .atEnd rule offset offset' [c]
  | cons d cs =>
      by_cases hd : d = '\n'
      · subst hd
        rw [crlf_newline, List.drop_succ_cons, List.drop_succ_cons,
          List.drop_zero, List.drop_zero]
        by_cases hbounded : rule.maxLength.isSome = true
        · rw [bodyEnd_newline hbounded]
          exact bodyEnd_broken (Delimiter.isPlain_iff.1 hcloser).1 hbounded
            offset offset' c cs
        · have hmax : rule.maxLength = none := by simpa using hbounded
          rw [bodyEnd_blank hplain (by decide) (exceeds_unbounded hmax _ _)]
          have hends := hnext (offset' + 3) fun h => absurd h hbounded
          refine BodyEnd.Returned.behind [c, '\n'] ?_ fun h => absurd h hbounded
          rw [crlf_cons hc]
          exact hends
      · rw [crlf_cons hd, List.drop_succ_cons, List.drop_succ_cons,
          List.drop_zero, List.drop_zero]
        have hends := hnext (offset' + 2) fun h => by rw [hoffset h]
        refine BodyEnd.Returned.behind [c, d] ?_ fun _ => by
          simp [Ne.symm hc, Ne.symm hd]
        rw [crlf_cons hc, crlf_cons hd]
        exact hends

/-- Two closers that stand for one are passed over in both texts. -/
theorem doubled_returned (hcloser : rule.closer.isPlain = true)
    {offset offset' : Nat} {c : Char} {cs : List Char} (hc : c ≠ '\n')
    (hoffset : rule.maxLength.isSome = true → offset' = offset)
    (hdoubles : rule.doublesCloser (c :: cs) = true)
    (hnext : ∀ after,
      (rule.maxLength.isSome = true → after = offset + 2 * rule.closer.length) →
      BodyEnd.Returned rule (offset + 2 * rule.closer.length) after
        (cs.drop (2 * rule.closer.length - 1))
        (rule.bodyEnd (offset + 2 * rule.closer.length)
          (cs.drop (2 * rule.closer.length - 1)))
        (rule.bodyEnd after (crlf (cs.drop (2 * rule.closer.length - 1))))) :
    BodyEnd.Returned rule offset offset' (c :: cs)
      (rule.bodyEnd (offset + 2 * rule.closer.length)
        (cs.drop (2 * rule.closer.length - 1)))
      (rule.bodyEnd (offset' + 2 * rule.closer.length)
        ((crlf cs).drop (2 * rule.closer.length - 1))) := by
  obtain ⟨hcloserNe, -⟩ := Delimiter.isPlain_iff.1 hcloser
  have htwice : crlf (rule.closer.chars ++ rule.closer.chars)
      = rule.closer.chars ++ rule.closer.chars := by
    rw [crlf_append, Delimiter.crlf_chars hcloser]
  -- what is behind the two closers, in both texts
  obtain ⟨-, after, hafter⟩ := (doublesCloser_iff hcloserNe).1 hdoubles
  have hlength : 2 * rule.closer.length
      = Delimiter.length ⟨rule.closer.chars ++ rule.closer.chars⟩ := by
    rw [Delimiter.length, Delimiter.length, List.length_append, Nat.two_mul]
  have hdrop : cs.drop (2 * rule.closer.length - 1) = after := by
    rw [hlength]
    exact Delimiter.drop_chars (by simp [hcloserNe]) hafter
  have hdrop' : (crlf cs).drop (2 * rule.closer.length - 1) = crlf after := by
    rw [hlength]
    refine Delimiter.drop_chars (c := c) (by simp [hcloserNe]) ?_
    rw [← crlf_cons hc, ← hafter, crlf_append, htwice]
  have hends := hnext (offset' + 2 * rule.closer.length) fun h => by
    rw [hoffset h]
  rw [hdrop] at hends ⊢
  rw [hdrop', ← hafter]
  refine BodyEnd.Returned.behind _ ?_ fun _ hmem => ?_
  · rw [htwice]
    rw [hlength] at hends ⊢
    exact hends
  · rcases List.mem_append.1 hmem with hmem | hmem
    · exact Delimiter.line hcloser hmem
    · exact Delimiter.line hcloser hmem

/-- The end of a body with carriage returns and without. The induction is that
of `bodyEnd`: out of bounds, an escape, a doubled closer, the closer and any
other character each have their lemma above. -/
theorem bodyEnd_returned (hplain : rule.isPlain = true) (offset : Nat)
    (cs : List Char) :
    ∀ offset', (rule.maxLength.isSome = true → offset' = offset) →
      BodyEnd.Returned rule offset offset' cs (rule.bodyEnd offset cs)
        (rule.bodyEnd offset' (crlf cs)) := by
  obtain ⟨-, hcloser, -, -⟩ := isPlain_parts hplain
  have hline : ∀ {c : Char} {cs : List Char},
      rule.closer.startsAt (c :: cs) = true →
      c ≠ '\n' := by
    rintro c cs hcloses rfl
    rw [Delimiter.startsAt_blank hcloser (by decide)] at hcloses
    cases hcloses
  fun_induction LiteralRule.bodyEnd rule offset cs with
  | case1 offset =>
      intro offset' _
      rw [crlf_nil, bodyEnd]
      exact .atEnd rule offset offset' []
  | case2 offset c cs hexceeds =>
      intro offset' hoffset
      exact exceeds_returned hplain hoffset hexceeds cs
  | case3 offset c cs hexceeds hescape ih =>
      intro offset' hoffset
      exact escape_returned hplain hoffset (by simpa using hexceeds)
        (by simpa using hescape) ih
  | case4 offset c cs hexceeds hescape hcloses hdoubles ih =>
      intro offset' hoffset
      have hc := hline hcloses
      rw [crlf_cons hc, bodyEnd, exceeds_level hoffset, if_neg hexceeds,
        if_neg hescape, ← crlf_cons hc, Delimiter.startsAt_crlf hcloser,
        if_pos hcloses, doublesCloser_crlf hcloser, if_pos hdoubles]
      exact doubled_returned hcloser hc hoffset hdoubles ih
  | case5 offset c cs hexceeds hescape hcloses hdoubles =>
      intro offset' hoffset
      have hc := hline hcloses
      rw [crlf_cons hc, bodyEnd, exceeds_level hoffset, if_neg hexceeds,
        if_neg hescape, ← crlf_cons hc, Delimiter.startsAt_crlf hcloser,
        if_pos hcloses, doublesCloser_crlf hcloser, if_neg hdoubles]
      exact .closer 0 (Delimiter.startsAt_iff.1 hcloses) fun _ => by simp
  | case6 offset c cs hexceeds hescape hcloses ih =>
      intro offset' hoffset
      by_cases hc : c = '\n'
      · -- only a literal without a bound goes past a line feed
        subst hc
        have hbounded : ¬ rule.maxLength.isSome = true := fun h =>
          hexceeds (exceeds_newline h offset)
        have hmax : rule.maxLength = none := by simpa using hbounded
        rw [crlf_newline,
          bodyEnd_blank hplain (by decide) (exceeds_unbounded hmax _ _),
          bodyEnd_blank hplain (by decide) (exceeds_unbounded hmax _ _)]
        exact BodyEnd.Returned.behind ['\n']
          (ih (offset' + 2) fun h => absurd h hbounded)
          fun h => absurd h hbounded
      · have hends := ih (offset' + 1) fun h => by rw [hoffset h]
        rw [crlf_cons hc, bodyEnd, exceeds_level hoffset, if_neg hexceeds,
          if_neg hescape, ← crlf_cons hc, Delimiter.startsAt_crlf hcloser,
          if_neg hcloses]
        refine BodyEnd.Returned.behind [c] ?_ fun _ => by simpa using Ne.symm hc
        rw [crlf_cons hc]
        exact hends

end LiteralRule

-- =========================================================== lexemes

/-- A comment or literal in front of a text, and in front of it with carriage
returns: none, a line comment that takes the carriage return along, the same
stretch, or a bounded literal that escapes a line feed. Of the last nothing is
said here about the text with carriage returns. -/
inductive Lexeme.Returned (literals : List LiteralRule) (cs : List Char) :
    Option Lexeme → Option Lexeme → Prop where
  | nothing : Lexeme.Returned literals cs none none
  | line {a b : Lexeme} {front rest : List Char}
    (text : cs = front ++ '\n' :: rest)
    (line : '\n' ∉ front) (kind : a.kind = .comment .line)
    (kind' : b.kind = .comment .line)
    (length : a.length = front.length) (length' : b.length = front.length + 1) :
    Lexeme.Returned literals cs (some a) (some b)
  | whole {a b : Lexeme} (kind : b.kind = a.kind)
    (length : b.length = (crlf (cs.take a.length)).length) :
    Lexeme.Returned literals cs (some a) (some b)
  | broken {a : Lexeme} (b : Option Lexeme) (rule : LiteralRule)
    (mem : rule ∈ literals)
    (bounded : rule.maxLength.isSome = true) (kind : a.kind = rule.kind)
    (opener : rule.opener.chars <+: cs.take a.length)
    (breaks : '\n' ∈ cs.take a.length) :
    Lexeme.Returned literals cs (some a) b

/-- Lexemes whose lengths differ by the carriage returns between are related, or
there is none on either side. -/
theorem Lexeme.Returned.ofLength {literals : List LiteralRule} {c : Char}
    {cs : List Char} {n n' : Nat} (hn : 0 < n)
    (hlength : n' = (crlf ((c :: cs).take n)).length) (kind : SpanKind)
    (unclosed unclosed' : Option Unclosed) :
    Lexeme.Returned literals (c :: cs) (Lexeme.ofLength? kind n unclosed)
      (Lexeme.ofLength? kind n' unclosed') := by
  have hn' : 0 < n' := by
    obtain ⟨k, rfl⟩ : ∃ k, n = k + 1 := ⟨n - 1, by omega⟩
    rw [hlength, List.take_succ_cons, crlf]
    split
    · exact Nat.succ_pos _
    · exact Nat.succ_pos _
  rw [Lexeme.ofLength?, Lexeme.ofLength?, dif_pos hn, dif_pos hn']
  exact .whole rfl hlength

theorem takeWhile_line {line : List Char} (h : '\n' ∉ line) :
    line.takeWhile (· ≠ '\n') = line :=
  List.takeWhile_eq_self_iff.2 fun c hc => by
    simpa using fun heq : c = '\n' => h (heq ▸ hc)

/-- A line comment takes the carriage return along. -/
theorem Rules.lineLexeme?_returned (literals : List LiteralRule) {c : Char}
    (hc : c ≠ '\n') (cs : List Char) :
    Lexeme.Returned literals (c :: cs) (Rules.lineLexeme? (c :: cs))
      (Rules.lineLexeme? (crlf (c :: cs))) := by
  by_cases hbreak : '\n' ∈ c :: cs
  · obtain ⟨front, rest, hcs, hfront⟩ := List.eq_append_cons_of_mem hbreak
    have hpos : 0 < front.length := by
      rw [List.length_pos_iff]
      rintro rfl
      exact hc (List.cons.inj hcs).1
    have htake : (c :: cs).takeWhile (· ≠ '\n') = front := by
      rw [hcs, takeWhile_joined (by decide), takeWhile_line hfront]
    have htake' : (crlf (c :: cs)).takeWhile (· ≠ '\n') = front ++ ['\r'] := by
      have hreturn : '\n' ∉ front ++ ['\r'] := by simpa using hfront
      rw [hcs, crlf_append, crlf_line hfront, crlf_newline, List.append_cons,
        takeWhile_joined (by decide), takeWhile_line hreturn]
    rw [lineLexeme?, lineLexeme?, htake, htake', Lexeme.ofLength?,
      Lexeme.ofLength?, dif_pos hpos, dif_pos (by simp)]
    exact .line hcs hfront rfl rfl rfl (by simp)
  · rw [lineLexeme?, lineLexeme?, crlf_line hbreak, takeWhile_line hbreak]
    have hpos : 0 < (c :: cs).length := Nat.succ_pos _
    exact .ofLength hpos (by rw [List.take_length, crlf_line hbreak]) _ _ _

/-- The body behind a delimiter that opens, in a text and in it with carriage
returns. -/
structure Delimiter.Opened (opener : Delimiter) (cs body : List Char) :
    Prop where
  drop : cs.drop opener.length = body
  drop_crlf : (crlf cs).drop opener.length = crlf body
  take : ∀ n, cs.take (opener.length + n) = opener.chars ++ body.take n
  length_crlf : ∀ n, opener.length + (crlf (body.take n)).length
    = (crlf (cs.take (opener.length + n))).length

/-- What a plain delimiter opens is a body behind it. -/
theorem Delimiter.exists_opened {opener : Delimiter}
    (hopener : opener.isPlain = true) {cs : List Char}
    (h : opener.opensAt cs = true) : ∃ body, opener.Opened cs body := by
  obtain ⟨body, rfl⟩ :=
    (Delimiter.opensAt_iff (Delimiter.isPlain_iff.1 hopener).1).1 h
  have htake : ∀ n, (opener.chars ++ body).take (opener.length + n)
      = opener.chars ++ body.take n := fun n => by
    rw [Delimiter.length, List.take_length_add_append]
  refine ⟨body, List.drop_left, ?_, htake, fun n => ?_⟩
  · rw [crlf_append, Delimiter.crlf_chars hopener]
    exact List.drop_left
  · rw [htake, crlf_append, List.length_append, Delimiter.crlf_chars hopener,
      Delimiter.length]

/-- The stretch up to the end of a closer. -/
theorem Delimiter.Opened.closed {opener closer : Delimiter}
    {cs body : List Char} (h : opener.Opened cs body)
    (hcloser : closer.isPlain = true) {n : Nat}
    (hstands : closer.chars <+: body.drop n) :
    opener.length + (crlf (body.take n)).length + closer.length
      = (crlf (cs.take (opener.length + n + closer.length))).length := by
  have hcloses : (body.drop n).take closer.length = closer.chars :=
    (List.prefix_iff_eq_take.1 hstands).symm
  rw [Nat.add_assoc opener.length n, ← h.length_crlf, List.take_add, hcloses,
    crlf_append, Delimiter.crlf_chars hcloser, List.length_append,
    Delimiter.length, Delimiter.length, Nat.add_assoc]

/-- A block comment is the same stretch. -/
theorem Rules.blockLexeme?_returned {rules : Rules}
    (hopener : rules.blockOpener.isPlain = true)
    (hcloser : rules.blockCloser.isPlain = true) (literals : List LiteralRule)
    {c : Char} {cs : List Char}
    (hopens : rules.blockOpener.opensAt (c :: cs) = true) :
    Lexeme.Returned literals (c :: cs) (rules.blockLexeme? (c :: cs))
      (rules.blockLexeme? (crlf (c :: cs))) := by
  have hpos := Delimiter.length_pos hopener
  obtain ⟨body, hopened⟩ := Delimiter.exists_opened hopener hopens
  unfold blockLexeme?
  simp only [hopened.drop, hopened.drop_crlf]
  have hends := blockBodyLength?_ends hcloser hopener body
  revert hends
  generalize rules.blockBodyLength? body = a
  generalize rules.blockBodyLength? (crlf body) = b
  intro hends
  cases hends with
  | nowhere =>
      refine .ofLength (Nat.add_pos_left hpos _) ?_ _ _ _
      rw [← hopened.length_crlf, List.take_length]
  | found n =>
      exact .ofLength (Nat.add_pos_left hpos _) (hopened.length_crlf n) _ _ _

/-- A literal is the same stretch, but for a bounded one that escapes a line
feed. -/
theorem LiteralRule.lexeme?_returned {rule : LiteralRule}
    (hplain : rule.isPlain = true) {literals : List LiteralRule}
    (hmem : rule ∈ literals) (before : Option Char) (c : Char)
    (cs : List Char) :
    Lexeme.Returned literals (c :: cs) (rule.lexeme? before (c :: cs))
      (rule.lexeme? before (crlf (c :: cs))) := by
  obtain ⟨hopener, hcloser, -, -⟩ := isPlain_parts hplain
  have hpos := Delimiter.length_pos hopener
  unfold lexeme?
  rw [Delimiter.opensAt_crlf hopener]
  cases hopens : rule.opener.opensAt (c :: cs) with
  | false => exact .nothing
  | true =>
      obtain ⟨body, hopened⟩ := Delimiter.exists_opened hopener hopens
      simp only [hopened.drop, hopened.drop_crlf, Bool.not_true,
        Bool.false_eq_true, if_false]
      split
      · exact .nothing
      · have hends :=
          bodyEnd_returned hplain rule.opener.length body rule.opener.length
          fun _ => rfl
        revert hends
        generalize rule.bodyEnd rule.opener.length body = a
        generalize rule.bodyEnd rule.opener.length (crlf body) = b
        intro hends
        cases hends with
        | closer n stands line =>
            have hcontent : (crlf body).take (crlf (body.take n)).length
                = crlf (body.take n) :=
              Text.take_placed body n
            have hlength := hopened.closed hcloser stands
            simp only [Nat.add_sub_cancel_left, hcontent]
            by_cases hbounded : rule.maxLength.isSome = true
            · rw [crlf_line (line hbounded)] at hlength ⊢
              split
              · exact .nothing
              · exact .ofLength (by omega) hlength _ _ _
            · simp only [hbounded, Bool.false_and, Bool.false_eq_true, if_false]
              exact .ofLength (by omega) hlength _ _ _
        | broken n bounded stands breaks =>
            simp only [Nat.add_sub_cancel_left]
            split
            · exact .nothing
            · have hstretch : (c :: cs).take
                  (rule.opener.length + n + rule.closer.length)
                  = rule.opener.chars
                    ++ (body.take n ++ (body.drop n).take
                      rule.closer.length) := by
                rw [Nat.add_assoc, hopened.take, List.take_add]
              rw [Lexeme.ofLength?, dif_pos (by omega)]
              refine .broken _ rule hmem bounded rfl ?_ ?_
              · simp only [hstretch]
                exact List.prefix_append _ _
              · simp only [hstretch]
                exact List.mem_append_right _ (List.mem_append_left _ breaks)
        | declined bounded ha hb =>
            cases a with
            | closer n => exact absurd rfl (ha n)
            | outOfBounds | endOfText =>
                cases b with
                | closer n => exact absurd rfl (hb n)
                | outOfBounds | endOfText =>
                    simp only [bounded, if_true]
                    exact .nothing
        | endOfText unbounded =>
            simp only [unbounded, Option.isSome_none, Bool.false_eq_true,
              if_false]
            refine .ofLength (by omega) ?_ _ _ _
            rw [← hopened.length_crlf, List.take_length]

/-- The first literal of those tried. -/
theorem literals_returned {literals : List LiteralRule}
    (hplain : ∀ rule ∈ literals, rule.isPlain = true) (before : Option Char)
    (c : Char) (cs : List Char) {tried : List LiteralRule}
    (htried : ∀ rule ∈ tried, rule ∈ literals) :
    Lexeme.Returned literals (c :: cs)
      (tried.findSome? (·.lexeme? before (c :: cs)))
      (tried.findSome? (·.lexeme? before (crlf (c :: cs)))) := by
  induction tried with
  | nil => exact .nothing
  | cons rule tried ih =>
      have hmem := htried rule List.mem_cons_self
      have hrule :=
        LiteralRule.lexeme?_returned (hplain rule hmem) hmem before c cs
      rw [List.findSome?_cons, List.findSome?_cons]
      revert hrule
      generalize rule.lexeme? before (c :: cs) = a
      generalize rule.lexeme? before (crlf (c :: cs)) = b
      intro hrule
      cases hrule with
      | nothing =>
          exact ih fun rule hrule => htried rule (List.mem_cons_of_mem _ hrule)
      | line text line kind kind' length length' =>
          exact .line text line kind kind' length length'
      | whole kind length => exact .whole kind length
      | broken b rule mem bounded kind opener breaks =>
          exact .broken _ rule mem bounded kind opener breaks

/-- What is read at a place other than a line feed, with carriage returns and
without: the alternatives are tried in the same order, and each of them gives
related lexemes. -/
theorem Rules.Plain.lexemeAt?_returned {rules : Rules}
    {literals : List LiteralRule} (hplain : rules.Plain literals)
    (before : Option Char) {c : Char} (hc : c ≠ '\n') (cs : List Char) :
    Lexeme.Returned literals (c :: cs)
      (rules.lexemeAt? literals before (c :: cs))
      (rules.lexemeAt? literals before (crlf (c :: cs))) := by
  unfold Rules.lexemeAt?
  rw [Delimiter.opensAt_crlf hplain.line, Delimiter.opensAt_crlf hplain.opener]
  split
  · exact Rules.lineLexeme?_returned literals hc cs
  · split
    · next hopens =>
      exact Rules.blockLexeme?_returned hplain.opener hplain.closer literals
        hopens
    · exact literals_returned hplain.literal before c cs fun _ h => h

-- ================================================== bounded literals

/-- The characters start a bounded literal. -/
def OpensBounded (literals : List LiteralRule) (chars : List Char) : Prop :=
  ∃ rule ∈ literals, rule.maxLength.isSome = true ∧ rule.opener.chars <+: chars

/-- A table with no bounded literals beside a preprocessor, in which what opens
like a bounded literal is one. -/
structure Rules.BoundsApart (rules : Rules) : Prop where
  directives : rules.preprocessor = true → ∀ rule ∈ rules.literals,
    rule.maxLength = none
  openers : ∀ rule ∈ rules.literals,
    rule.maxLength.isSome = true → ∀ other ∈ rules.literals,
    rule.opener.chars <+: other.opener.chars
      ∨ other.opener.chars <+: rule.opener.chars →
      other.maxLength.isSome = true

/-- The tables are such: only character literals are bounded, and their openers
start no other literal. -/
theorem Dialect.boundsApart (dialect : Dialect) :
    dialect.rules.BoundsApart := by
  cases dialect <;> exact ⟨by decide, by decide⟩

/-- A bounded literal takes a line feed in behind a backslash only. -/
theorem LiteralRule.Passes.continued {rule : LiteralRule}
    (hplain : rule.isPlain = true) (hbounded : rule.maxLength.isSome = true)
    {offset : Nat} {content rest : List Char}
    (h : rule.Passes offset content rest) : Text.Continued content := by
  obtain ⟨-, hcloser, -, hescape⟩ := isPlain_parts hplain
  induction h with
  | nil => exact .of_notMem List.not_mem_nil
  | @escaped offset e c content rest within escape more ih =>
      have he : e = '\\' := by
        rcases hescape with h | h
        · rw [h] at escape
          cases escape
        · rw [h] at escape
          injection escape with escape
          injection escape with escape
          exact escape.symm
      rw [he]
      exact (Text.Continued.backslash c).append ih
  | doubled within unescaped doubles more ih =>
      have hline := Delimiter.line hcloser
      refine Text.Continued.append (.of_notMem ?_) ih
      rw [List.mem_append, not_or]
      exact ⟨hline, hline⟩
  | @plain offset c content rest within unescaped unclosed more ih =>
      have hc : c ≠ '\n' := by
        rintro rfl
        rw [exceeds_newline hbounded] at within
        cases within
      have hfirst : Text.Continued [c] :=
        .of_notMem (by simpa using hc.symm)
      exact hfirst.append ih

theorem Rules.isPlain_literal {rules : Rules} (hplain : rules.isPlain = true)
    {rule : LiteralRule} (hrule : rule ∈ rules.literals) :
    rule.isPlain = true := by
  simp only [isPlain, Bool.and_eq_true, List.all_eq_true] at hplain
  exact hplain.1.2 rule hrule

/-- Within a bounded literal every line feed is escaped. -/
theorem Rules.Takes.bounded_continued {rules : Rules} {rule : LiteralRule}
    (hplain : rule.isPlain = true) (hbounded : rule.maxLength.isSome = true)
    {chars rest : List Char} {unclosed : Option Unclosed}
    (h : rules.Takes (.literal rule) chars rest unclosed) :
    Text.Continued chars := by
  obtain ⟨hopener, hcloser, -, -⟩ := LiteralRule.isPlain_parts hplain
  cases h with
  | @literal _ content rest closes =>
      obtain ⟨behind, hbody, hpasses, -⟩ := closes
      refine Text.Continued.append (.of_notMem (Delimiter.line hopener)) ?_
      exact (hpasses.continued hplain hbounded).append
        (.of_notMem (Delimiter.line hcloser))
  | openLiteral unbounded =>
      rw [unbounded] at hbounded
      cases hbounded

/-- A literal that opens like a bounded one goes on over a line feed behind a
backslash only. -/
theorem Rules.BoundsApart.literal_continued {rules : Rules}
    (hapart : rules.BoundsApart) (hdelimited : rules.Delimited)
    (hplain : rules.isPlain = true) {text : List Char} {span : Span}
    (hspan : span ∈ rules.spans text) (hliteral : span.kind.isLiteral = true)
    (hopens : OpensBounded rules.literals span.chars) :
    Text.Continued span.chars := by
  have hdrop := spans_drop hspan
  obtain ⟨rule, hrule, hbounded, hopener⟩ := hopens
  cases hdelimited.spans_made text span hspan with
  | code kind =>
      rw [kind] at hliteral
      cases hliteral
  | lexeme a kind first takes =>
      cases a with
      | line =>
          rw [kind] at hliteral
          cases hliteral
      | block =>
          rw [kind] at hliteral
          cases hliteral
      | literal other =>
          obtain ⟨-, -, ⟨hother, happlies⟩, -⟩ := first
          -- both openers stand at the place, so the literal is a bounded one
          -- too
          have hopener : rule.opener.chars <+: text.drop span.start := by
            rw [hdrop]
            exact hopener.trans (List.prefix_append _ _)
          have hother' := hapart.openers rule hrule hbounded other hother
            (List.prefix_or_prefix_of_prefix hopener happlies.opener)
          exact takes.bounded_continued (Rules.isPlain_literal hplain hother)
            hother'

end Marginalia
