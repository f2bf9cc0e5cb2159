/-
What stands inside a comment or literal.

# The two grammars

`Rules.Closes` reads the inside of a block comment piece by piece: a closer,
an opener where comments nest, or one character at which neither stands.
`LiteralRule.Passes` does so for a literal: a character that an escape takes
with it, a closer written twice, or one character that is no closer. Both
are told with the characters that really follow, so that a delimiter which
runs over the end of a piece is seen.

# What they are for

The functions that look for the end of a comment or literal find just what
the grammars describe (`blockBodyLength?_iff`, `bodyEnd_iff`). From here on
nothing looks into these functions: what is said of an end is said of a
derivation, and cutting off or adding characters behind the end are
inductions over derivations (`Closes.cut`, `Content.cut`, `Content.extend`).
-/
import Marginalia.Span.Lexeme
import Mathlib.Data.List.Basic

namespace Marginalia

-- ======================================================== delimiters

theorem Delimiter.startsAt_iff {d : Delimiter} {cs : List Char} :
    d.startsAt cs = true ↔ d.chars <+: cs :=
  List.isPrefixOf_iff_prefix

/-- A delimiter with characters opens something wherever they stand. -/
theorem Delimiter.opensAt_iff {d : Delimiter} (hd : d.chars ≠ [])
    {cs : List Char} :
    d.opensAt cs = true ↔ d.chars <+: cs := by
  have hempty : d.isEmpty = false := by
    rw [isEmpty, List.isEmpty_eq_false_iff]
    exact hd
  rw [opensAt, hempty, Bool.not_false, Bool.true_and, startsAt_iff]

/-- What follows a delimiter, by its first character. -/
theorem Delimiter.drop_chars {d : Delimiter} (hd : d.chars ≠ []) {c : Char}
    {cs rest : List Char} (h : d.chars ++ rest = c :: cs) :
    cs.drop (d.length - 1) = rest := by
  obtain ⟨first, tail, htail⟩ := List.exists_cons_of_ne_nil hd
  rw [htail, List.cons_append] at h
  injection h with hfirst hcs
  rw [length, htail, ← hcs, List.length_cons, Nat.add_sub_cancel,
    List.drop_left]

theorem Delimiter.head?_eq {d : Delimiter} (hd : d.chars ≠ []) {cs : List Char}
    (h : d.chars <+: cs) : d.chars.head? = cs.head? := by
  obtain ⟨rest, rfl⟩ := h
  exact (List.head?_append_of_ne_nil _ hd).symm

/-- More text behind a list that is long enough changes no prefix. -/
theorem prefix_append_iff {p cs : List Char} (more : List Char)
    (h : p.length ≤ cs.length) :
    p <+: cs ++ more ↔ p <+: cs :=
  ⟨fun hp => List.prefix_of_prefix_length_le hp (List.prefix_append cs more) h,
    fun hp => hp.trans (List.prefix_append cs more)⟩

-- ==================================================== block comments

/-- The characters up to the end of a block comment, its closer included,
with `depth` further comments open around it and the rest behind it. -/
inductive Rules.Closes (rules : Rules) :
    Nat → List Char → List Char → Prop where
  | closer (rest : List Char) : rules.Closes 0 rules.blockCloser.chars rest
  | leave {depth : Nat} {body rest : List Char}
    (more : rules.Closes depth body rest) :
    rules.Closes (depth + 1) (rules.blockCloser.chars ++ body) rest
  | enter {depth : Nat} {body rest : List Char}
    (nests : rules.nestedBlocks = true) (unclosed : ¬ rules.blockCloser.chars
      <+: rules.blockOpener.chars ++ body ++ rest)
    (more : rules.Closes (depth + 1) body rest) :
    rules.Closes depth (rules.blockOpener.chars ++ body) rest
  | char {depth : Nat} {c : Char} {body rest : List Char}
    (unclosed : ¬ rules.blockCloser.chars <+: c :: body ++ rest)
    (unopened : rules.nestedBlocks = true →
      ¬ rules.blockOpener.chars <+: c :: body ++ rest)
    (more : rules.Closes depth body rest) : rules.Closes depth (c :: body) rest

namespace Rules

variable {rules : Rules}

/-- What closes a comment ends in its closer. -/
theorem Closes.closer_suffix {depth : Nat} {body rest : List Char}
    (h : rules.Closes depth body rest) : rules.blockCloser.chars <:+ body := by
  induction h with
  | closer => exact List.suffix_refl _
  | leave _ ih => exact ih.trans (List.suffix_append _ _)
  | enter _ _ _ ih => exact ih.trans (List.suffix_append _ _)
  | char _ _ _ ih => exact ih.trans (List.suffix_cons _ _)

/-- A closer ends a comment at depth zero. -/
theorem nestedLength?_closer (hcloser : rules.blockCloser.chars ≠ [])
    (rest : List Char) :
    rules.nestedLength? 0 (rules.blockCloser.chars ++ rest)
      = some rules.blockCloser.length := by
  have hstarts : rules.blockCloser.startsAt (rules.blockCloser.chars ++ rest)
      = true :=
    Delimiter.startsAt_iff.2 (List.prefix_append _ _)
  obtain ⟨c, cs, hcs⟩ :=
    List.exists_cons_of_ne_nil (List.append_ne_nil_of_left_ne_nil hcloser rest)
  rw [hcs] at hstarts ⊢
  rw [nestedLength?, if_pos hstarts]

/-- And leads one comment out at any other depth. -/
theorem nestedLength?_leave (hcloser : rules.blockCloser.chars ≠ [])
    (depth : Nat) (rest : List Char) :
    rules.nestedLength? (depth + 1) (rules.blockCloser.chars ++ rest)
      = (rules.nestedLength? depth rest).map
        (· + rules.blockCloser.length) := by
  have hstarts : rules.blockCloser.startsAt (rules.blockCloser.chars ++ rest)
      = true :=
    Delimiter.startsAt_iff.2 (List.prefix_append _ _)
  obtain ⟨c, cs, hcs⟩ :=
    List.exists_cons_of_ne_nil (List.append_ne_nil_of_left_ne_nil hcloser rest)
  have hdrop := Delimiter.drop_chars hcloser hcs
  rw [hcs] at hstarts ⊢
  rw [nestedLength?, if_pos hstarts]
  simp only [hdrop]

/-- An opener leads one comment in, unless it also closes. -/
theorem nestedLength?_enter (hopener : rules.blockOpener.chars ≠ [])
    (depth : Nat) {rest : List Char}
    (hcloses : ¬ rules.blockCloser.chars <+: rules.blockOpener.chars ++ rest) :
    rules.nestedLength? depth (rules.blockOpener.chars ++ rest)
      = (rules.nestedLength? (depth + 1) rest).map
        (· + rules.blockOpener.length) := by
  have hopens : rules.blockOpener.opensAt (rules.blockOpener.chars ++ rest)
      = true :=
    (Delimiter.opensAt_iff hopener).2 (List.prefix_append _ _)
  rw [← Delimiter.startsAt_iff] at hcloses
  obtain ⟨c, cs, hcs⟩ :=
    List.exists_cons_of_ne_nil (List.append_ne_nil_of_left_ne_nil hopener rest)
  have hdrop := Delimiter.drop_chars hopener hcs
  rw [hcs] at hopens hcloses ⊢
  rw [nestedLength?.eq_def]
  simp only [if_neg hcloses, if_pos hopens, hdrop]

/-- Any other character counts. -/
theorem nestedLength?_char (hopener : rules.blockOpener.chars ≠ [])
    (depth : Nat) {c : Char} {cs : List Char}
    (hcloses : ¬ rules.blockCloser.chars <+: c :: cs)
    (hopens : ¬ rules.blockOpener.chars <+: c :: cs) :
    rules.nestedLength? depth (c :: cs)
      = (rules.nestedLength? depth cs).map (· + 1) := by
  rw [← Delimiter.startsAt_iff] at hcloses
  rw [← Delimiter.opensAt_iff hopener] at hopens
  rw [nestedLength?.eq_def]
  simp only [if_neg hcloses, if_neg hopens]

/-- Where comments nest, what is found is the end of a derivation. -/
theorem nestedLength?_closes (hnests : rules.nestedBlocks = true)
    (hcloser : rules.blockCloser.chars ≠ [])
    (hopener : rules.blockOpener.chars ≠ []) (depth : Nat) (cs : List Char) :
    ∀ {n : Nat}, rules.nestedLength? depth cs = some n →
      ∃ body rest, cs = body ++ rest ∧ rules.Closes depth body rest
        ∧ body.length = n := by
  fun_induction Rules.nestedLength? rules depth cs with
  | case1 depth =>
      intro n h
      cases h
  | case2 c cs hcloses =>
      intro n h
      injection h with hn
      obtain ⟨rest, hrest⟩ := Delimiter.startsAt_iff.1 hcloses
      exact ⟨_, rest, hrest.symm, .closer rest, hn⟩
  | case3 c cs hcloses d ih =>
      intro n h
      obtain ⟨n', hn', rfl⟩ := Option.map_eq_some_iff.1 h
      obtain ⟨after, hafter⟩ := Delimiter.startsAt_iff.1 hcloses
      obtain ⟨body, rest, hcs, hbody, hlength⟩ := ih hn'
      rw [Delimiter.drop_chars hcloser hafter] at hcs
      refine ⟨_, rest, ?_, .leave hbody, ?_⟩
      · rw [← hafter, hcs, List.append_assoc]
      · rw [List.length_append, hlength, Delimiter.length, Nat.add_comm]
  | case4 depth c cs hcloses hopens ih =>
      intro n h
      obtain ⟨n', hn', rfl⟩ := Option.map_eq_some_iff.1 h
      obtain ⟨after, hafter⟩ := (Delimiter.opensAt_iff hopener).1 hopens
      obtain ⟨body, rest, hcs, hbody, hlength⟩ := ih hn'
      rw [Delimiter.drop_chars hopener hafter] at hcs
      have hwhole : rules.blockOpener.chars ++ body ++ rest = c :: cs := by
        rw [← hafter, hcs, List.append_assoc]
      refine ⟨_, rest, hwhole.symm, .enter hnests ?_ hbody, ?_⟩
      · rw [hwhole, ← Delimiter.startsAt_iff]
        exact hcloses
      · rw [List.length_append, hlength, Delimiter.length, Nat.add_comm]
  | case5 depth c cs hcloses hopens ih =>
      intro n h
      obtain ⟨n', hn', rfl⟩ := Option.map_eq_some_iff.1 h
      obtain ⟨body, rest, hcs, hbody, hlength⟩ := ih hn'
      refine ⟨c :: body, rest, ?_, .char ?_ (fun _ => ?_) hbody, ?_⟩
      · rw [hcs, List.cons_append]
      · rw [List.cons_append, ← hcs, ← Delimiter.startsAt_iff]
        exact hcloses
      · rw [List.cons_append, ← hcs, ← Delimiter.opensAt_iff hopener]
        exact hopens
      · rw [List.length_cons, hlength]

/-- Where comments do not nest, the first closer ends a derivation. -/
theorem find?_closes (hnests : rules.nestedBlocks = false)
    (hcloser : rules.blockCloser.chars ≠ []) (cs : List Char) :
    ∀ {n : Nat}, rules.blockCloser.find? cs = some n →
      ∃ body rest, cs = body ++ rest ∧ rules.Closes 0 body rest
        ∧ body.length = n + rules.blockCloser.length := by
  induction cs with
  | nil =>
      intro n h
      rw [Delimiter.find?, Delimiter.isEmpty,
        List.isEmpty_eq_false_iff.2 hcloser] at h
      cases h
  | cons c cs ih =>
      intro n h
      rw [Delimiter.find?] at h
      split at h
      · next hcloses =>
        injection h with hn
        obtain ⟨rest, hrest⟩ := Delimiter.startsAt_iff.1 hcloses
        exact ⟨_, rest, hrest.symm,
          .closer rest, by rw [← hn, Nat.zero_add, Delimiter.length]⟩
      · next hcloses =>
        obtain ⟨n', hn', rfl⟩ := Option.map_eq_some_iff.1 h
        obtain ⟨body, rest, hcs, hbody, hlength⟩ := ih hn'
        refine ⟨c :: body, rest, ?_, .char ?_ ?_ hbody, ?_⟩
        · rw [hcs, List.cons_append]
        · rw [List.cons_append, ← hcs, ← Delimiter.startsAt_iff]
          exact hcloses
        · intro hn
          rw [hnests] at hn
          cases hn
        · rw [List.length_cons, hlength]
          omega

namespace Closes

/-- A body that closes is measured to its end. The induction is on how it
closes. -/
theorem nestedLength? (hnests : rules.nestedBlocks = true)
    (hcloser : rules.blockCloser.chars ≠ [])
    (hopener : rules.blockOpener.chars ≠ []) {depth : Nat}
    {body rest : List Char} (h : rules.Closes depth body rest) :
    rules.nestedLength? depth (body ++ rest) = some body.length := by
  induction h with
  | closer rest => exact nestedLength?_closer hcloser rest
  | leave _ ih =>
      rw [List.append_assoc, nestedLength?_leave hcloser, ih, Option.map_some,
        List.length_append, Nat.add_comm, Delimiter.length]
  | enter _ unclosed _ ih =>
      rw [List.append_assoc] at unclosed ⊢
      rw [nestedLength?_enter hopener _ unclosed, ih, Option.map_some,
        List.length_append, Nat.add_comm, Delimiter.length]
  | char unclosed unopened _ ih =>
      rw [List.cons_append] at unclosed ⊢
      rw [nestedLength?_char hopener _ unclosed (unopened hnests), ih,
        Option.map_some, List.length_cons]

/-- Where comments do not nest, the first closer ends the body. -/
theorem find? (hnests : rules.nestedBlocks = false)
    (hcloser : rules.blockCloser.chars ≠ []) {depth : Nat}
    {body rest : List Char} (h : rules.Closes depth body rest)
    (hd : depth = 0) :
    (rules.blockCloser.find? (body ++ rest)).map (· + rules.blockCloser.length)
      = some body.length := by
  induction h with
  | closer rest =>
      have hstarts : rules.blockCloser.startsAt
          (rules.blockCloser.chars ++ rest) = true :=
        Delimiter.startsAt_iff.2 (List.prefix_append _ _)
      obtain ⟨c, cs, hcs⟩ :=
        List.exists_cons_of_ne_nil
          (List.append_ne_nil_of_left_ne_nil hcloser rest)
      rw [hcs] at hstarts ⊢
      rw [Delimiter.find?, if_pos hstarts, Option.map_some, Nat.zero_add,
        Delimiter.length]
  | leave => cases hd
  | enter nests =>
      rw [hnests] at nests
      cases nests
  | char unclosed _ _ ih =>
      rw [← Delimiter.startsAt_iff, List.cons_append] at unclosed
      obtain ⟨n, hn, hlength⟩ := Option.map_eq_some_iff.1 (ih hd)
      rw [List.cons_append, Delimiter.find?, if_neg unclosed, hn,
        Option.map_some, Option.map_some, List.length_cons, ← hlength]
      congr 1
      omega

/-- What stands behind the end of a comment can be cut off. -/
theorem cut {depth : Nat} {body rest : List Char} (more : List Char)
    (h : rules.Closes depth body (rest ++ more)) :
    rules.Closes depth body rest := by
  generalize hbehind : rest ++ more = behind at h
  induction h with
  | closer => exact .closer rest
  | leave _ ih => exact .leave (ih hbehind)
  | enter nests unclosed _ ih =>
      subst hbehind
      refine .enter nests (fun hp => unclosed ?_) (ih rfl)
      rw [← List.append_assoc]
      exact hp.trans (List.prefix_append _ more)
  | char unclosed unopened _ ih =>
      subst hbehind
      refine .char (fun hp => unclosed ?_) (fun hnests hp => unopened hnests ?_)
        (ih rfl)
      · rw [← List.append_assoc]
        exact hp.trans (List.prefix_append _ more)
      · rw [← List.append_assoc]
        exact hp.trans (List.prefix_append _ more)

end Closes

/-- The end of a block comment is looked for where the grammar has it. -/
theorem blockBodyLength?_iff (hcloser : rules.blockCloser.chars ≠ [])
    (hopener : rules.blockOpener.chars ≠ []) {cs : List Char} {n : Nat} :
    rules.blockBodyLength? cs = some n
      ↔ ∃ body rest, cs = body ++ rest ∧ rules.Closes 0 body rest
        ∧ body.length = n := by
  unfold blockBodyLength?
  cases hnests : rules.nestedBlocks with
  | true =>
      rw [if_pos rfl]
      constructor
      · exact nestedLength?_closes hnests hcloser hopener 0 cs
      · rintro ⟨body, rest, rfl, hbody, rfl⟩
        exact hbody.nestedLength? hnests hcloser hopener
  | false =>
      rw [if_neg Bool.false_ne_true]
      constructor
      · intro h
        obtain ⟨k, hk, rfl⟩ := Option.map_eq_some_iff.1 h
        exact find?_closes hnests hcloser cs hk
      · rintro ⟨body, rest, rfl, hbody, rfl⟩
        exact hbody.find? hnests hcloser rfl

/-- The text ends inside a block comment exactly where no derivation ends. -/
theorem blockBodyLength?_none_iff (hcloser : rules.blockCloser.chars ≠ [])
    (hopener : rules.blockOpener.chars ≠ []) {cs : List Char} :
    rules.blockBodyLength? cs = none
      ↔ ∀ body rest, cs = body ++ rest → ¬ rules.Closes 0 body rest := by
  rw [Option.eq_none_iff_forall_ne_some]
  constructor
  · intro h body rest hcs hbody
    exact h body.length
      ((blockBodyLength?_iff hcloser hopener).2 ⟨body, rest, hcs, hbody, rfl⟩)
  · intro h n hn
    obtain ⟨body, rest, hcs, hbody, -⟩ :=
      (blockBodyLength?_iff hcloser hopener).1 hn
    exact h body rest hcs hbody

end Rules

-- ========================================================== literals

/-- A stretch of a literal in which no closer counts, `offset` characters
behind the literal's first character and with the rest behind it. A bounded
literal checks the first character of each piece. -/
inductive LiteralRule.Passes (rule : LiteralRule) :
    Nat → List Char → List Char → Prop where
  | nil (offset : Nat) (rest : List Char) : rule.Passes offset [] rest
  | escaped {offset : Nat} {e c : Char} {content rest : List Char}
    (within : rule.exceeds offset e = false) (escape : rule.escape = some [e])
    (more : rule.Passes (offset + 2) content rest) :
    rule.Passes offset (e :: c :: content) rest
  | doubled {offset : Nat} {content rest : List Char}
    (within : ∀ c ∈ rule.closer.chars.head?, rule.exceeds offset c = false)
    (unescaped : ∀ c ∈ rule.closer.chars.head?, rule.escape ≠ some [c])
    (doubles : rule.doubledCloser = true)
    (more : rule.Passes (offset + 2 * rule.closer.length) content rest) :
    rule.Passes offset (rule.closer.chars ++ rule.closer.chars ++ content) rest
  | plain {offset : Nat} {c : Char} {content rest : List Char}
    (within : rule.exceeds offset c = false)
    (unescaped : rule.escape ≠ some [c])
    (unclosed : ¬ rule.closer.chars <+: c :: content ++ rest)
    (more : rule.Passes (offset + 1) content rest) :
    rule.Passes offset (c :: content) rest

/-- A closer that counts stands at the start of the text: it is not escaped,
and not written twice where that would make it content. -/
structure LiteralRule.ClosesAt (rule : LiteralRule) (offset : Nat)
    (rest : List Char) : Prop where
  closer : rule.closer.chars <+: rest
  within : ∀ c ∈ rest.head?, rule.exceeds offset c = false
  unescaped : ∀ c ∈ rest.head?, rule.escape ≠ some [c]
  single : rule.doubledCloser = true →
    ¬ rule.closer.chars ++ rule.closer.chars <+: rest

/-- What stands between the opener of a literal and the first closer that
counts, in a text that goes on with `body` behind the opener. -/
def LiteralRule.Content (rule : LiteralRule) (body content : List Char) :
    Prop :=
  ∃ rest, body = content ++ rest ∧ rule.Passes rule.opener.length content rest
    ∧ rule.ClosesAt (rule.opener.length + content.length) rest

namespace LiteralRule

variable {rule : LiteralRule}

/-- A closer is doubled if the rule says so and it stands there twice. -/
theorem doublesCloser_iff (hcloser : rule.closer.chars ≠ []) {cs : List Char} :
    rule.doublesCloser cs = true
      ↔ rule.doubledCloser = true
        ∧ rule.closer.chars ++ rule.closer.chars <+: cs := by
  rw [doublesCloser, Delimiter.isEmpty, List.isEmpty_eq_false_iff.2 hcloser,
    Bool.not_false, Bool.and_true, Bool.and_eq_true, List.isPrefixOf_iff_prefix]

/-- A closer written twice, and what follows it. -/
theorem doublesCloser_split {c : Char} {cs : List Char}
    (h : rule.doublesCloser (c :: cs) = true) :
    rule.closer.chars ++ rule.closer.chars ++ cs.drop
      (2 * rule.closer.length - 1) = c :: cs := by
  have hcloser : rule.closer.chars ≠ [] := by
    intro hnil
    simp [doublesCloser, Delimiter.isEmpty, hnil] at h
  obtain ⟨-, after, hafter⟩ := (doublesCloser_iff hcloser).1 h
  have hdrop :=
    Delimiter.drop_chars (d := ⟨rule.closer.chars ++ rule.closer.chars⟩)
    (by simp [hcloser]) hafter
  rw [Delimiter.length, List.length_append, ← Nat.two_mul] at hdrop
  rw [Delimiter.length, hdrop, hafter]

/-- A closer that is found is the end of a derivation. -/
theorem bodyEnd_passes (hcloser : rule.closer.chars ≠ []) (offset : Nat)
    (cs : List Char) :
    ∀ {stop : Nat}, rule.bodyEnd offset cs = .closer stop →
      ∃ content rest, cs = content ++ rest ∧ rule.Passes offset content rest
        ∧ rule.ClosesAt stop rest ∧ stop = offset + content.length := by
  fun_induction LiteralRule.bodyEnd rule offset cs with
  | case1 offset =>
      intro stop h
      cases h
  | case2 offset c cs hexceeds =>
      intro stop h
      cases h
  | case3 offset c cs hexceeds hescape ih =>
      intro stop h
      cases cs with
      | nil =>
          rw [List.drop_nil, bodyEnd] at h
          cases h
      | cons d cs =>
          obtain ⟨content, rest, hcs, hpasses, hcloses, hstop⟩ := ih h
          rw [List.drop_succ_cons, List.drop_zero] at hcs
          refine ⟨c :: d :: content, rest, ?_, .escaped ?_ ?_ hpasses,
            hcloses, ?_⟩
          · rw [hcs, List.cons_append, List.cons_append]
          · simpa using hexceeds
          · simpa using hescape
          · rw [hstop, List.length_cons, List.length_cons]
            omega
  | case4 offset c cs hexceeds hescape hcloses hdoubles ih =>
      intro stop h
      have hsplit := doublesCloser_split hdoubles
      obtain ⟨content, rest, hcs, hpasses, hends, hstop⟩ := ih h
      have hfirst : ∀ x ∈ rule.closer.chars.head?, x = c := by
        intro x hx
        rw [List.append_assoc] at hsplit
        have hhead := Delimiter.head?_eq hcloser ⟨_, hsplit⟩
        rw [hhead, List.head?_cons, Option.mem_some_iff] at hx
        exact hx.symm
      rw [hcs] at hsplit
      refine ⟨rule.closer.chars ++ rule.closer.chars ++ content, rest, ?_,
        .doubled ?_ ?_ ((doublesCloser_iff hcloser).1 hdoubles).1 hpasses,
        hends, ?_⟩
      · rw [← hsplit, ← List.append_assoc]
      · intro x hx
        rw [hfirst x hx]
        simpa using hexceeds
      · intro x hx
        rw [hfirst x hx]
        simpa using hescape
      · rw [hstop, List.length_append, List.length_append, Delimiter.length]
        omega
  | case5 offset c cs hexceeds hescape hcloses hdoubles =>
      intro stop h
      injection h with hstop
      subst hstop
      refine ⟨[], c :: cs, rfl, .nil offset _,
        ⟨Delimiter.startsAt_iff.1 hcloses, ?_, ?_, ?_⟩, rfl⟩
      · intro x hx
        rw [List.head?_cons, Option.mem_some_iff] at hx
        rw [← hx]
        simpa using hexceeds
      · intro x hx
        rw [List.head?_cons, Option.mem_some_iff] at hx
        rw [← hx]
        simpa using hescape
      · intro hdouble hp
        exact hdoubles ((doublesCloser_iff hcloser).2 ⟨hdouble, hp⟩)
  | case6 offset c cs hexceeds hescape hcloses ih =>
      intro stop h
      obtain ⟨content, rest, hcs, hpasses, hends, hstop⟩ := ih h
      refine ⟨c :: content, rest, ?_, .plain ?_ ?_ ?_ hpasses, hends, ?_⟩
      · rw [hcs, List.cons_append]
      · simpa using hexceeds
      · simpa using hescape
      · rw [List.cons_append, ← hcs, ← Delimiter.startsAt_iff]
        exact hcloses
      · rw [hstop, List.length_cons]
        omega

/-- A body ends where its closer stands. -/
theorem ClosesAt.bodyEnd (hcloser : rule.closer.chars ≠ []) {offset : Nat}
    {rest : List Char} (h : rule.ClosesAt offset rest) :
    rule.bodyEnd offset rest = .closer offset := by
  have hne : rest ≠ [] :=
    fun hnil => hcloser (List.prefix_nil.1 (hnil ▸ h.closer))
  obtain ⟨c, cs, rfl⟩ := List.exists_cons_of_ne_nil hne
  have hexceeds := h.within c rfl
  have hescape := h.unescaped c rfl
  have hdoubles : ¬ rule.doublesCloser (c :: cs) = true := by
    rw [doublesCloser_iff hcloser]
    rintro ⟨hdouble, hp⟩
    exact h.single hdouble hp
  rw [LiteralRule.bodyEnd, if_neg (by simpa using hexceeds),
    if_neg (by simpa using hescape), if_pos (Delimiter.startsAt_iff.2 h.closer),
    if_neg hdoubles]

/-- And is read as far as that over content that passes. The induction is on how
the content passes. -/
theorem Passes.bodyEnd (hcloser : rule.closer.chars ≠ []) {offset : Nat}
    {content rest : List Char} (h : rule.Passes offset content rest)
    (hcloses : rule.ClosesAt (offset + content.length) rest) :
    rule.bodyEnd offset (content ++ rest)
      = .closer (offset + content.length) := by
  induction h with
  | nil offset rest => exact hcloses.bodyEnd hcloser
  | @escaped offset e c content rest within escape _ ih =>
      have hoffset : offset + (e :: c :: content).length
          = offset + 2 + content.length := by
        rw [List.length_cons, List.length_cons]
        omega
      rw [hoffset] at hcloses ⊢
      rw [List.cons_append, LiteralRule.bodyEnd, if_neg (by simpa using within),
        if_pos (by simpa using escape)]
      exact ih hcloses
  | @doubled offset content rest within unescaped doubles _ ih =>
      have hoffset : offset
          + (rule.closer.chars ++ rule.closer.chars ++ content).length
          = offset + 2 * rule.closer.length + content.length := by
        rw [List.length_append, List.length_append, Delimiter.length]
        omega
      rw [hoffset] at hcloses ⊢
      obtain ⟨first, tail, htail⟩ := List.exists_cons_of_ne_nil hcloser
      have hstarts : rule.closer.startsAt
          (rule.closer.chars ++ rule.closer.chars ++ content ++ rest)
            = true := by
        rw [Delimiter.startsAt_iff, List.append_assoc, List.append_assoc]
        exact List.prefix_append _ _
      have hdoubles : rule.doublesCloser
          (rule.closer.chars ++ rule.closer.chars ++ content ++ rest)
            = true := by
        rw [doublesCloser_iff hcloser, List.append_assoc]
        exact ⟨doubles, List.prefix_append _ _⟩
      have hcs : rule.closer.chars ++ rule.closer.chars ++ content ++ rest
          = first :: (tail ++ rule.closer.chars ++ content ++ rest) := by
        rw [htail]
        rfl
      have hlength : 2 * rule.closer.length - 1
          = (tail ++ rule.closer.chars).length := by
        rw [List.length_append, Delimiter.length, htail, List.length_cons]
        omega
      rw [hcs] at hstarts hdoubles ⊢
      rw [LiteralRule.bodyEnd,
        if_neg (by simpa using within first (by simp [htail])),
        if_neg (by simpa using unescaped first (by simp [htail])),
        if_pos hstarts, if_pos hdoubles, hlength, List.append_assoc _ content,
        List.drop_left]
      exact ih hcloses
  | @plain offset c content rest within unescaped unclosed _ ih =>
      have hoffset : offset + (c :: content).length
          = offset + 1 + content.length := by
        rw [List.length_cons]
        omega
      rw [hoffset] at hcloses ⊢
      rw [← Delimiter.startsAt_iff, List.cons_append] at unclosed
      rw [List.cons_append, LiteralRule.bodyEnd, if_neg (by simpa using within),
        if_neg (by simpa using unescaped), if_neg unclosed]
      exact ih hcloses

/-- The end of a literal is looked for where the grammar has it. -/
theorem bodyEnd_iff (hcloser : rule.closer.chars ≠ []) {body : List Char}
    {stop : Nat} :
    rule.bodyEnd rule.opener.length body = .closer stop
      ↔ ∃ content, rule.Content body content
        ∧ stop = rule.opener.length + content.length := by
  constructor
  · intro h
    obtain ⟨content, rest, hbody, hpasses, hcloses, hstop⟩ :=
      bodyEnd_passes hcloser rule.opener.length body h
    exact ⟨content, ⟨rest, hbody, hpasses, hstop ▸ hcloses⟩, hstop⟩
  · rintro ⟨content, ⟨rest, rfl, hpasses, hcloses⟩, rfl⟩
    exact hpasses.bodyEnd hcloser hcloses

/-- A body has one content. -/
theorem Content.unique (hcloser : rule.closer.chars ≠ [])
    {body content content' : List Char} (h : rule.Content body content)
    (h' : rule.Content body content') : content = content' := by
  have hend := (bodyEnd_iff hcloser).2 ⟨content, h, rfl⟩
  rw [(bodyEnd_iff hcloser).2 ⟨content', h', rfl⟩] at hend
  injection hend with hlength
  obtain ⟨rest, hbody, -⟩ := h
  obtain ⟨rest', hbody', -⟩ := h'
  exact (List.append_inj (hbody.symm.trans hbody') (by omega)).1

/-- A literal without a bound is never out of bounds. -/
theorem bodyEnd_unbounded (hmax : rule.maxLength = none) (offset : Nat)
    (cs : List Char) :
    rule.bodyEnd offset cs ≠ .outOfBounds := by
  fun_induction LiteralRule.bodyEnd rule offset cs with
  | case1 => exact BodyEnd.noConfusion
  | case2 offset c cs hexceeds =>
      rw [exceeds, hmax] at hexceeds
      cases hexceeds
  | case3 _ _ _ _ _ ih => exact ih
  | case4 _ _ _ _ _ _ _ ih => exact ih
  | case5 => exact BodyEnd.noConfusion
  | case6 _ _ _ _ _ _ ih => exact ih

/-- The text ends inside a literal without a bound exactly when no closer in
it counts. -/
theorem bodyEnd_endOfText_iff (hcloser : rule.closer.chars ≠ [])
    (hmax : rule.maxLength = none) {body : List Char} :
    rule.bodyEnd rule.opener.length body = .endOfText
      ↔ ∀ content, ¬ rule.Content body content := by
  constructor
  · intro h content hcontent
    have hend := (bodyEnd_iff hcloser).2 ⟨content, hcontent, rfl⟩
    rw [h] at hend
    cases hend
  · intro h
    cases hend : rule.bodyEnd rule.opener.length body with
    | endOfText => rfl
    | outOfBounds => exact absurd hend (bodyEnd_unbounded hmax _ _)
    | closer stop =>
        obtain ⟨content, hcontent, -⟩ := (bodyEnd_iff hcloser).1 hend
        exact absurd hcontent (h content)

-- ============================================ what follows a literal

/-- Content that passes in front of a text passes in front of its start. -/
theorem Passes.cut {offset : Nat} {content rest : List Char} (more : List Char)
    (h : rule.Passes offset content (rest ++ more)) :
    rule.Passes offset content rest := by
  generalize hbehind : rest ++ more = behind at h
  induction h with
  | nil offset => exact .nil offset rest
  | escaped within escape _ ih => exact .escaped within escape (ih hbehind)
  | doubled within unescaped doubles _ ih =>
      exact .doubled within unescaped doubles (ih hbehind)
  | plain within unescaped unclosed _ ih =>
      subst hbehind
      refine .plain within unescaped (fun hp => unclosed ?_) (ih rfl)
      rw [← List.append_assoc]
      exact hp.trans (List.prefix_append _ more)

/-- A delimiter that would run over the end of the content would run into a
whole closer, so what is behind that closer does not matter. -/
theorem Passes.extend {offset : Nat} {content rest : List Char}
    (more : List Char) (h : rule.Passes offset content rest)
    (hrest : rule.closer.chars <+: rest) :
    rule.Passes offset content (rest ++ more) := by
  induction h with
  | nil offset rest => exact .nil offset _
  | escaped within escape _ ih => exact .escaped within escape (ih hrest)
  | doubled within unescaped doubles _ ih =>
      exact .doubled within unescaped doubles (ih hrest)
  | @plain offset c content rest within unescaped unclosed _ ih =>
      refine .plain within unescaped ?_ (ih hrest)
      have hlength : rule.closer.chars.length
          ≤ (c :: content ++ rest).length := by
        have hle := hrest.length_le
        rw [List.length_append]
        omega
      rw [← List.append_assoc, prefix_append_iff more hlength]
      exact unclosed

theorem ClosesAt.cut {offset : Nat} {rest more : List Char}
    (h : rule.ClosesAt offset (rest ++ more)) (hcloser : rule.closer.chars ≠ [])
    (hlength : rule.closer.length ≤ rest.length) :
    rule.ClosesAt offset rest := by
  have hne : rest ≠ [] := by
    intro hnil
    rw [hnil, List.length_nil, Nat.le_zero] at hlength
    exact hcloser (List.length_eq_zero_iff.1 hlength)
  have hhead : (rest ++ more).head? = rest.head? :=
    List.head?_append_of_ne_nil rest hne
  refine ⟨(prefix_append_iff more hlength).1 h.closer, ?_, ?_,
    fun hdouble hp => ?_⟩
  · rw [← hhead]
    exact h.within
  · rw [← hhead]
    exact h.unescaped
  · exact h.single hdouble (hp.trans (List.prefix_append _ more))

/-- Text behind the closer of a literal can be cut off. -/
theorem Content.cut (hcloser : rule.closer.chars ≠ [])
    {body more content : List Char} (h : rule.Content (body ++ more) content)
    (hlength : content.length + rule.closer.length ≤ body.length) :
    rule.Content body content := by
  obtain ⟨rest, hbody, hpasses, hcloses⟩ := h
  -- the content lies in the part that is kept
  obtain ⟨left, rfl⟩ : content <+: body :=
    List.prefix_of_prefix_length_le ⟨rest,
      hbody.symm⟩ (List.prefix_append body more) (by omega)
  rw [List.append_assoc, List.append_cancel_left_eq] at hbody
  subst hbody
  rw [List.length_append] at hlength
  exact ⟨left, rfl, hpasses.cut more, hcloses.cut hcloser (by omega)⟩

/-- Text behind the closer of a literal makes no difference where a closer
written twice is no content. -/
theorem Content.extend (hcloser : rule.closer.chars ≠ [])
    (hdouble : rule.doubledCloser = false) {body content : List Char}
    (more : List Char) (h : rule.Content body content) :
    rule.Content (body ++ more) content := by
  obtain ⟨rest, rfl, hpasses, hcloses⟩ := h
  have hne : rest ≠ [] :=
    fun hnil => hcloser (List.prefix_nil.1 (hnil ▸ hcloses.closer))
  have hhead : (rest ++ more).head? = rest.head? :=
    List.head?_append_of_ne_nil rest hne
  refine ⟨rest ++ more, List.append_assoc _ _ _,
    hpasses.extend more hcloses.closer, ?_⟩
  refine ⟨hcloses.closer.trans (List.prefix_append _ _), ?_, ?_,
    fun hdoubled => ?_⟩
  · rw [hhead]
    exact hcloses.within
  · rw [hhead]
    exact hcloses.unescaped
  · rw [hdouble] at hdoubled
    cases hdoubled

end LiteralRule

end Marginalia
