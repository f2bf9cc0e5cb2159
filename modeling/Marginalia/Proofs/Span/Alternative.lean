/-
Which comment or literal starts at a place, and what it takes of the text.

A line comment, a block comment or a literal of the table may start at a
place (`AppliesAt`); of those that may, the first one does (`FirstAt`): line
comments before block comments before literals, and of the literals the one
with the longest opener, the first in the table among equals. `Takes` says
which characters are then the comment's or literal's.

`lexemeAt?_some_iff` and `lexemeAt?_none_iff` say that this is what is read,
for every table whose delimiters have characters (`Delimited`). Sorting the
literals once and trying them in order comes to the same as looking for the
longest (`findSome?_longest`), because sorting keeps the order of equals.
-/
import Marginalia.Proofs.Span.Body
import Marginalia.Proofs.Span.Plain
import Mathlib.Data.List.TakeWhile

namespace Marginalia

/-- A table whose delimiters have characters, whose line comments do not open
with a line feed in them, and whose literals are literals. -/
structure Rules.Delimited (rules : Rules) : Prop where
  line : rules.lineComment.chars ≠ []
  lineBreak : '\n' ∉ rules.lineComment.chars
  opener : rules.blockOpener.chars ≠ []
  closer : rules.blockCloser.chars ≠ []
  literal : ∀ rule ∈ rules.literals,
    rule.opener.chars ≠ [] ∧ rule.closer.chars ≠ []
    ∧ rule.kind.isLiteral = true

/-- The tables of all dialects are such. -/
theorem Dialect.delimited (dialect : Dialect) : dialect.rules.Delimited := by
  cases dialect
    <;> exact ⟨by decide, by decide, by decide, by decide, by decide⟩

-- ====================================================== alternatives

/-- What may start at a place of a text. -/
inductive Alternative where
  | line
  | block
  | literal (rule : LiteralRule)
  deriving DecidableEq, Repr

/-- What the stretch becomes. -/
def Alternative.kind : Alternative → SpanKind
  | line => .comment .line
  | block => .comment .block
  | literal rule => rule.kind

/-- What it opens with. -/
def Rules.openerOf (rules : Rules) : Alternative → Delimiter
  | .line => rules.lineComment
  | .block => rules.blockOpener
  | .literal rule => rule.opener

/-- The content of a bounded literal: one character, or what starts with an
escape. -/
def LiteralRule.IsOneChar (rule : LiteralRule) (content : List Char) : Prop :=
  content.length = 1 ∨ content ≠ [] ∧ ∃ escape,
    rule.escape = some escape ∧ escape <+: content

/-- The literal may start at the start of the text, after character `before`. -/
structure LiteralRule.AppliesAt (rule : LiteralRule) (before : Option Char)
    (cs : List Char) : Prop where
  opener : rule.opener.chars <+: cs
  apart : rule.wordPrefixed = true → ∀ c ∈ before, Text.isWordChar c = false
  /-- A bounded literal has to close in time, on little content. -/
  accepted : rule.maxLength.isSome = true →
    ∃ content, rule.Content (cs.drop rule.opener.length) content
      ∧ rule.IsOneChar content

/-- The alternative may start at the start of the text, after character
`before`. -/
def Rules.AppliesAt (rules : Rules) (before : Option Char) (cs : List Char) :
    Alternative → Prop
  | .line => rules.lineComment.chars <+: cs
  | .block => rules.blockOpener.chars <+: cs
  | .literal rule => rule ∈ rules.literals ∧ rule.AppliesAt before cs

/-- An element that is longer than all with the property before it and no
shorter than those behind it. -/
def IsLongest {α : Type} (length : α → Nat) (p : α → Prop) (xs : List α)
    (x : α) : Prop :=
  ∃ front back, xs = front ++ x :: back
    ∧ (∀ y ∈ front, p y → length y < length x)
    ∧ ∀ y ∈ back, p y → length y ≤ length x

/-- The alternative that does: none that goes before it may start there. -/
def Rules.FirstAt (rules : Rules) (before : Option Char) (cs : List Char) :
    Alternative → Prop
  | .line => rules.AppliesAt before cs .line
  | .block =>
    ¬ rules.AppliesAt before cs .line ∧ rules.AppliesAt before cs .block
  | .literal rule =>
    ¬ rules.AppliesAt before cs .line ∧ ¬ rules.AppliesAt before cs .block
      ∧ rules.AppliesAt before cs (.literal rule)
      ∧ IsLongest (·.opener.length) (·.AppliesAt before cs) rules.literals rule

/-- The characters that an alternative takes of a text, those behind them,
and what the text ends inside of. -/
inductive Rules.Takes (rules : Rules) :
    Alternative → List Char → List Char → Option Unclosed → Prop where
  | line {chars rest : List Char} (inside : '\n' ∉ chars)
    (stop : rest = [] ∨ rest.head? = some '\n') :
    rules.Takes .line chars rest none
  | block {body rest : List Char} (closes : rules.Closes 0 body rest) :
    rules.Takes .block (rules.blockOpener.chars ++ body) rest none
  | openBlock {body : List Char}
    (unclosed : ∀ front back,
      body = front ++ back → ¬ rules.Closes 0 front back) :
    rules.Takes .block (rules.blockOpener.chars ++ body) [] (some .comment)
  | literal {rule : LiteralRule} {content rest : List Char}
    (closes : rule.Content (content ++ (rule.closer.chars ++ rest)) content) :
    rules.Takes (.literal rule)
      (rule.opener.chars ++ (content ++ rule.closer.chars)) rest none
  | openLiteral {rule : LiteralRule} {body : List Char}
    (unbounded : rule.maxLength = none)
    (unclosed : ∀ content, ¬ rule.Content body content) :
    rules.Takes (.literal rule) (rule.opener.chars ++ body) []
      (some (.literal rule.opener))

/-- The lexeme is what the alternative takes of the text. -/
def Rules.Reads (rules : Rules) (cs : List Char) (a : Alternative)
    (lexeme : Lexeme) : Prop :=
  ∃ chars rest, cs = chars ++ rest ∧ rules.Takes a chars rest lexeme.unclosed
    ∧ lexeme.kind = a.kind ∧ lexeme.length = chars.length

-- ========================================================== comments

theorem Lexeme.ofLength?_isSome {length : Nat} (h : 0 < length)
    (kind : SpanKind) (unclosed : Option Unclosed) :
    ∃ lexeme, Lexeme.ofLength? kind length unclosed = some lexeme :=
  ⟨⟨kind, length, unclosed, h⟩, dif_pos h⟩

namespace Rules

variable {rules : Rules}

/-- What is read of a line comment is what it takes. -/
theorem reads_of_lineLexeme? {cs : List Char} {lexeme : Lexeme}
    (h : Rules.lineLexeme? cs = some lexeme) : rules.Reads cs .line lexeme := by
  obtain ⟨hkind, hlength, hunclosed⟩ := Lexeme.ofLength?_iff.1 h
  refine ⟨cs.takeWhile (· ≠ '\n'), cs.dropWhile (· ≠ '\n'),
    List.takeWhile_append_dropWhile.symm, ?_, hkind, hlength⟩
  rw [hunclosed]
  refine .line (fun hmem => ?_) ?_
  · simpa using List.mem_takeWhile_imp hmem
  · cases hrest : cs.dropWhile (· ≠ '\n') with
    | nil => exact Or.inl rfl
    | cons c rest =>
        have hhead := List.head?_dropWhile_not (· ≠ '\n') cs
        rw [hrest] at hhead
        exact Or.inr (by simpa using hhead)

/-- A line comment has a character, since its opener has one before any line
feed. -/
theorem Delimited.lineLexeme?_isSome (hrules : rules.Delimited) {cs : List Char}
    (happlies : rules.lineComment.chars <+: cs) :
    ∃ lexeme, Rules.lineLexeme? cs = some lexeme := by
  obtain ⟨rest, rfl⟩ := happlies
  obtain ⟨c, tail, htail⟩ := List.exists_cons_of_ne_nil hrules.line
  have hc : c ≠ '\n' :=
    fun heq => hrules.lineBreak (by rw [htail, heq]; exact List.mem_cons_self)
  apply Lexeme.ofLength?_isSome
  rw [htail, List.cons_append, List.takeWhile_cons, if_pos (by simpa using hc),
    List.length_cons]
  omega

/-- What is read of a block comment is what it takes. -/
theorem Delimited.reads_of_blockLexeme? (hrules : rules.Delimited)
    {cs : List Char} {lexeme : Lexeme}
    (happlies : rules.blockOpener.chars <+: cs)
    (h : rules.blockLexeme? cs = some lexeme) :
    rules.Reads cs .block lexeme := by
  obtain ⟨body, rfl⟩ := happlies
  have hdrop : (rules.blockOpener.chars ++ body).drop rules.blockOpener.length
      = body :=
    List.drop_left
  unfold Rules.blockLexeme? at h
  simp only [hdrop] at h
  cases hlength : rules.blockBodyLength? body with
  | some n =>
      obtain ⟨inside, rest, hbody, hcloses, hn⟩ :=
        (blockBodyLength?_iff hrules.closer hrules.opener).1 hlength
      rw [hlength] at h
      obtain ⟨hkind, hlex, hunclosed⟩ := Lexeme.ofLength?_iff.1 h
      refine ⟨rules.blockOpener.chars ++ inside, rest, ?_, ?_, hkind, ?_⟩
      · rw [hbody, List.append_assoc]
      · rw [hunclosed]
        exact .block hcloses
      · rw [hlex, List.length_append, hn, Delimiter.length]
  | none =>
      have hopen :=
        (blockBodyLength?_none_iff hrules.closer hrules.opener).1 hlength
      rw [hlength] at h
      obtain ⟨hkind, hlex, hunclosed⟩ := Lexeme.ofLength?_iff.1 h
      refine ⟨rules.blockOpener.chars ++ body, [], (List.append_nil _).symm, ?_,
        hkind, ?_⟩
      · rw [hunclosed]
        exact .openBlock hopen
      · rw [hlex, List.length_append, Delimiter.length]

/-- Something is read wherever a block comment opens: closed or not, it takes
its opener at least. -/
theorem Delimited.blockLexeme?_isSome (hrules : rules.Delimited)
    (cs : List Char) :
    ∃ lexeme, rules.blockLexeme? cs = some lexeme := by
  have hpos : 0 < rules.blockOpener.length :=
    List.length_pos_iff.2 hrules.opener
  unfold Rules.blockLexeme?
  simp only
  split
  · exact Lexeme.ofLength?_isSome (by omega) _ _
  · exact Lexeme.ofLength?_isSome (by omega) _ _

end Rules

-- ========================================================== literals

namespace LiteralRule

variable {rule : LiteralRule}

/-- The check for one character, as a property of the content. -/
theorem holdsOneChar_iff {content : List Char} :
    rule.holdsOneChar content = true ↔ rule.IsOneChar content := by
  unfold holdsOneChar IsOneChar
  match content with
  | [] => simp
  | [c] => simp
  | c :: d :: content => simp [Option.any_eq_true]

/-- A literal that may start has an end. -/
theorem AppliesAt.lexeme?_isSome {before : Option Char} {cs : List Char}
    (hopener : rule.opener.chars ≠ []) (hcloser : rule.closer.chars ≠ [])
    (h : rule.AppliesAt before cs) :
    ∃ lexeme, rule.lexeme? before cs = some lexeme := by
  have hpos : 0 < rule.opener.length := List.length_pos_iff.2 hopener
  have hword : (rule.wordPrefixed && before.any Text.isWordChar) = false := by
    cases hprefixed : rule.wordPrefixed with
    | false => rfl
    | true =>
        rw [Bool.true_and, Option.any_eq_false]
        simpa using h.apart hprefixed
  unfold lexeme?
  rw [(Delimiter.opensAt_iff hopener).2 h.opener, hword]
  simp only [Bool.not_true, Bool.false_eq_true, if_false]
  cases hmax : rule.maxLength with
  | some limit =>
      obtain ⟨content, hcontent, hone⟩ := h.accepted (by rw [hmax]; rfl)
      have hend := (bodyEnd_iff hcloser).2 ⟨content, hcontent, rfl⟩
      obtain ⟨rest, hbody, -⟩ := hcontent
      have htake : (cs.drop rule.opener.length).take
          (rule.opener.length + content.length - rule.opener.length)
            = content := by
        rw [hbody, Nat.add_sub_cancel_left, List.take_left]
      simp only [hend, htake, holdsOneChar_iff.2 hone]
      exact Lexeme.ofLength?_isSome (by omega) _ _
  | none =>
      simp only [Option.isSome_none, Bool.false_and, Bool.false_eq_true,
        if_false]
      cases hend : rule.bodyEnd rule.opener.length
        (cs.drop rule.opener.length) with
      | outOfBounds => exact absurd hend (bodyEnd_unbounded hmax _ _)
      | closer stop =>
          obtain ⟨content, -, rfl⟩ := (bodyEnd_iff hcloser).1 hend
          exact Lexeme.ofLength?_isSome (by omega) _ _
      | endOfText => exact Lexeme.ofLength?_isSome (by omega) _ _

/-- A literal that is read may start there, and is what it takes. -/
theorem reads_of_lexeme? {before : Option Char} {cs : List Char}
    {lexeme : Lexeme} (hopener : rule.opener.chars ≠ [])
    (hcloser : rule.closer.chars ≠ []) (rules : Rules)
    (h : rule.lexeme? before cs = some lexeme) :
    rule.AppliesAt before cs ∧ rules.Reads cs (.literal rule) lexeme := by
  unfold lexeme? at h
  split at h
  · cases h
  · next hopens =>
    split at h
    · cases h
    · next hword =>
      rw [Bool.not_eq_true, Bool.not_eq_false', Delimiter.opensAt_iff hopener]
        at hopens
      obtain ⟨body, rfl⟩ := hopens
      have hdrop : (rule.opener.chars ++ body).drop rule.opener.length = body :=
        List.drop_left
      have hapart : rule.wordPrefixed = true → ∀ c ∈ before,
          Text.isWordChar c = false := by
        intro hprefixed c hc
        rw [hprefixed, Bool.true_and, Bool.not_eq_true, Option.any_eq_false]
          at hword
        simpa using hword c hc
      simp only [hdrop] at h
      cases hend : rule.bodyEnd rule.opener.length body with
      | outOfBounds =>
          rw [hend] at h
          cases h
      | closer stop =>
          rw [hend] at h
          obtain ⟨content, hcontent, rfl⟩ := (bodyEnd_iff hcloser).1 hend
          obtain ⟨rest, hbody, hpasses, hcloses⟩ := id hcontent
          obtain ⟨after, hafter⟩ := hcloses.closer
          have htake : body.take
              (rule.opener.length + content.length - rule.opener.length)
              = content := by
            rw [hbody, Nat.add_sub_cancel_left, List.take_left]
          simp only [htake] at h
          split at h
          · cases h
          · next hone =>
            obtain ⟨hkind, hlength, hunclosed⟩ := Lexeme.ofLength?_iff.1 h
            refine ⟨⟨List.prefix_append _ _, hapart, fun hmax => ?_⟩, ?_⟩
            · rw [hdrop]
              refine ⟨content, hcontent, holdsOneChar_iff.1 ?_⟩
              simpa [hmax] using hone
            · refine ⟨rule.opener.chars ++ (content ++ rule.closer.chars),
                after, ?_, ?_, hkind, ?_⟩
              · rw [hbody, ← hafter, List.append_assoc, List.append_assoc]
              · rw [hunclosed]
                refine .literal ?_
                rw [hafter, ← hbody]
                exact hcontent
              · rw [hlength, List.length_append, List.length_append,
                  Delimiter.length, Delimiter.length, Nat.add_assoc]
      | endOfText =>
          rw [hend] at h
          simp only at h
          split at h
          · cases h
          · next hmax =>
            rw [Bool.not_eq_true, Option.isSome_eq_false_iff,
              Option.isNone_iff_eq_none] at hmax
            obtain ⟨hkind, hlength, hunclosed⟩ := Lexeme.ofLength?_iff.1 h
            refine ⟨⟨List.prefix_append _ _, hapart, fun hsome => ?_⟩, ?_⟩
            · rw [hmax] at hsome
              cases hsome
            · refine ⟨rule.opener.chars ++ body, [], (List.append_nil _).symm,
                ?_, hkind, ?_⟩
              · rw [hunclosed]
                exact .openLiteral hmax
                  ((bodyEnd_endOfText_iff hcloser hmax).1 hend)
              · rw [hlength, List.length_append, Delimiter.length]

end LiteralRule

-- ======================================================== uniqueness

namespace Rules

variable {rules : Rules}

/-- A line comment takes the text up to the line feed. -/
theorem Takes.line_chars {chars rest : List Char} {unclosed : Option Unclosed}
    (h : rules.Takes .line chars rest unclosed) :
    unclosed = none ∧ (chars ++ rest).takeWhile (· ≠ '\n') = chars := by
  cases h with
  | line inside stop =>
      have hchars : chars.takeWhile (· ≠ '\n') = chars :=
        List.takeWhile_eq_self_iff.2 fun c hc => by
          simpa using fun heq : c = '\n' => inside (heq ▸ hc)
      have hrest : rest.takeWhile (· ≠ '\n') = [] := by
        rcases stop with rfl | hhead
        · rfl
        · obtain ⟨tail, rfl⟩ := List.head?_eq_some_iff.1 hhead
          rfl
      rw [List.takeWhile_append, hchars, if_pos rfl, hrest, List.append_nil]
      exact ⟨rfl, rfl⟩

/-- An alternative takes one stretch of a text. -/
theorem Delimited.takes_unique (hrules : rules.Delimited) {a : Alternative}
    (hliteral : ∀ rule, a = .literal rule → rule ∈ rules.literals)
    {chars rest chars' rest' : List Char} {unclosed unclosed' : Option Unclosed}
    (h : rules.Takes a chars rest unclosed)
    (h' : rules.Takes a chars' rest' unclosed')
    (hcs : chars ++ rest = chars' ++ rest') :
    chars = chars' ∧ unclosed = unclosed' := by
  cases a with
  | line =>
      obtain ⟨hnone, hchars⟩ := h.line_chars
      obtain ⟨hnone', hchars'⟩ := h'.line_chars
      rw [← hchars, ← hchars', hcs, hnone, hnone']
      exact ⟨rfl, rfl⟩
  | block =>
      have hlength : ∀ {body rest : List Char}, rules.Closes 0 body rest →
          rules.blockBodyLength? (body ++ rest) = some body.length :=
            fun hcloses =>
        (blockBodyLength?_iff hrules.closer hrules.opener).2 ⟨_, _, rfl,
          hcloses, rfl⟩
      cases h with
      | @block body _ hcloses =>
          cases h' with
          | @block body' _ hcloses' =>
              simp only [List.append_assoc, List.append_cancel_left_eq] at hcs
              have hsame := hlength hcloses
              rw [hcs, hlength hcloses'] at hsame
              injection hsame with hsame
              rw [(List.append_inj hcs hsame.symm).1]
              exact ⟨rfl, rfl⟩
          | openBlock hopen =>
              simp only [List.append_assoc, List.append_nil,
                List.append_cancel_left_eq] at hcs
              exact absurd hcloses (hopen body rest hcs.symm)
      | openBlock hopen =>
          cases h' with
          | @block body' _ hcloses' =>
              simp only [List.append_assoc, List.append_nil,
                List.append_cancel_left_eq] at hcs
              exact absurd hcloses' (hopen body' rest' hcs)
          | openBlock =>
              simp only [List.append_nil, List.append_cancel_left_eq] at hcs
              rw [hcs]
              exact ⟨rfl, rfl⟩
  | literal rule =>
      obtain ⟨-, hcloser, -⟩ := hrules.literal rule (hliteral rule rfl)
      cases h with
      | @literal _ content _ hcontent =>
          cases h' with
          | @literal _ content' _ hcontent' =>
              simp only [List.append_assoc, List.append_cancel_left_eq] at hcs
              rw [← hcs] at hcontent'
              rw [hcontent.unique hcloser hcontent']
              exact ⟨rfl, rfl⟩
          | openLiteral _ hopen =>
              simp only [List.append_assoc, List.append_nil,
                List.append_cancel_left_eq] at hcs
              exact absurd (hcs ▸ hcontent) (hopen content)
      | openLiteral _ hopen =>
          cases h' with
          | @literal _ content' _ hcontent' =>
              simp only [List.append_assoc, List.append_nil,
                List.append_cancel_left_eq] at hcs
              exact absurd (hcs ▸ hcontent') (hopen content')
          | openLiteral =>
              simp only [List.append_nil, List.append_cancel_left_eq] at hcs
              rw [hcs]
              exact ⟨rfl, rfl⟩

end Rules

-- ========================================== the first that may start

/-- The longest with a property is the longest with a stronger one. -/
theorem IsLongest.imp {α : Type} {length : α → Nat} {p q : α → Prop}
    {xs : List α} {x : α} (h : IsLongest length p xs x)
    (hpq : ∀ y ∈ xs, q y → p y) : IsLongest length q xs x := by
  obtain ⟨front, back, rfl, hfront, hback⟩ := h
  refine ⟨front, back, rfl, fun y hy hq => ?_, fun y hy hq => ?_⟩
  · exact hfront y hy (hpq y (by simp [hy]) hq)
  · exact hback y hy (hpq y (by simp [hy]) hq)

/-- There is only one longest element: of equals it is the first. -/
theorem IsLongest.unique {α : Type} {length : α → Nat} {p : α → Prop}
    {xs : List α} {x y : α} (hx : IsLongest length p xs x)
    (hy : IsLongest length p xs y) (hpx : p x) (hpy : p y) : x = y := by
  have hapart : ∀ {x y : α} {front back as back' : List α}, p x → p y →
      (∀ z ∈ front ++ as, p z → length z < length y) →
        (∀ z ∈ back, p z → length z ≤ length x) →
      x :: back = as ++ y :: back' → x = y := by
    intro x y front back as back' hpx hpy hfront hback heq
    cases as with
    | nil => injection heq
    | cons z as =>
        -- the one in front would be shorter, and the one behind no longer
        rw [List.cons_append] at heq
        injection heq with hz hrest
        subst hz
        have hlt := hfront x (by simp) hpx
        have hle := hback y (by rw [hrest]; simp) hpy
        omega
  obtain ⟨front, back, hxs, hfront, hback⟩ := hx
  obtain ⟨front', back', hxs', hfront', hback'⟩ := hy
  rcases List.append_eq_append_iff.1 (hxs.symm.trans hxs') with ⟨as, rfl,
    heq⟩ | ⟨as, rfl, heq⟩
  · exact hapart hpx hpy hfront' hback heq
  · exact (hapart hpy hpx hfront hback' heq).symm

/-- The list, longest first. -/
def longestFirst {α : Type} (length : α → Nat) (xs : List α) : List α :=
  xs.mergeSort fun x y => length y ≤ length x

/-- Sorted by length, none is followed by a longer one. -/
theorem longestFirst_pairwise {α : Type} (length : α → Nat) (xs : List α) :
    (longestFirst length xs).Pairwise fun x y => length y ≤ length x := by
  have hsorted : (longestFirst length xs).Pairwise
      fun x y => decide (length y ≤ length x) = true := by
    apply List.pairwise_mergeSort
    · intro x y z hxy hyz
      exact decide_eq_true
        (Nat.le_trans (of_decide_eq_true hyz) (of_decide_eq_true hxy))
    · intro x y
      simpa using Nat.le_total (length y) (length x)
  exact hsorted.imp of_decide_eq_true

/-- Elements of one length keep their order. -/
theorem longestFirst_filter {α : Type} (length : α → Nat) (xs : List α)
    (n : Nat) :
    (longestFirst length xs).filter (length · == n)
      = xs.filter (length · == n) := by
  have hsub : (xs.filter (length · == n)).Sublist (longestFirst length xs) := by
    refine List.sublist_mergeSort (fun x y z hxy hyz => ?_)
      (fun x y => ?_) ?_ List.filter_sublist
    · exact decide_eq_true
        (Nat.le_trans (of_decide_eq_true hyz) (of_decide_eq_true hxy))
    · simpa using Nat.le_total (length y) (length x)
    · refine List.pairwise_of_forall_mem_list fun x hx y hy => ?_
      have hxn := beq_iff_eq.1 (List.mem_filter.1 hx).2
      have hyn := beq_iff_eq.1 (List.mem_filter.1 hy).2
      exact decide_eq_true (by omega)
  have hfiltered := hsub.filter (length · == n)
  rw [List.filter_filter] at hfiltered
  simp only [Bool.and_self] at hfiltered
  have hperm :=
    (List.mergeSort_perm xs fun x y => decide (length y ≤ length x)).filter
    (length · == n)
  exact (hfiltered.eq_of_length hperm.length_eq.symm).symm

/-- The first to answer, longest first, is the longest that answers. -/
theorem findSome?_longest {α β : Type} {length : α → Nat} {f : α → Option β}
    {xs : List α} {b : β} (h : (longestFirst length xs).findSome? f = some b) :
    ∃ x ∈ xs, IsLongest length (fun y => (f y).isSome = true) xs x
      ∧ f x = some b := by
  obtain ⟨before, x, after, hsorted, hx, hnone⟩ :=
    List.findSome?_eq_some_iff.1 h
  have hpairs := longestFirst_pairwise length xs
  have hequals := longestFirst_filter length xs (length x)
  have hperm : (longestFirst length xs).Perm xs := List.mergeSort_perm _ _
  rw [hsorted] at hpairs hequals hperm
  -- whatever answers does not stand in front of `x`, so it is no longer
  have hlonger : ∀ y ∈ xs, (f y).isSome = true → length y ≤ length x := by
    intro y hy hfy
    rcases List.mem_append.1 (hperm.mem_iff.2 hy) with hmem | hmem
    · rw [hnone y hmem] at hfy
      cases hfy
    · rcases List.mem_cons.1 hmem with rfl | hmem
      · exact Nat.le_refl _
      · exact (List.pairwise_cons.1 (List.pairwise_append.1 hpairs).2.1).1 y
          hmem
  -- those as long as `x` stand around it as they do in the sorted list
  rw [List.filter_append, List.filter_cons, if_pos (by simp)] at hequals
  obtain ⟨front, rest, rfl, hfront, hrest⟩ :=
    List.filter_eq_append_iff.1 hequals.symm
  obtain ⟨skipped, back, rfl, hskipped, -, -⟩ := List.filter_eq_cons_iff.1 hrest
  refine ⟨x, by simp,
    ⟨front ++ skipped, back, (List.append_assoc _ _ _).symm, fun y hy hfy => ?_,
      fun y hy hfy => hlonger y (by simp [hy]) hfy⟩, hx⟩
  rcases List.mem_append.1 hy with hmem | hmem
  · refine Nat.lt_of_le_of_ne (hlonger y (by simp [hmem]) hfy) fun heq => ?_
    have hbefore : y ∈ before.filter (length · == length x) := by
      rw [← hfront, List.mem_filter]
      exact ⟨hmem, beq_iff_eq.2 heq⟩
    have hsome : (f y).isSome = true := hfy
    rw [hnone y (List.mem_filter.1 hbefore).1] at hsome
    cases hsome
  · refine Nat.lt_of_le_of_ne (hlonger y (by simp [hmem]) hfy) fun heq => ?_
    exact hskipped y hmem (beq_iff_eq.2 heq)

namespace Rules

variable {rules : Rules} {before : Option Char} {cs : List Char}

/-- A literal has a lexeme where it may start, and only there. -/
theorem Delimited.lexeme?_isSome_iff (hrules : rules.Delimited)
    {rule : LiteralRule} (hrule : rule ∈ rules.literals) :
    (rule.lexeme? before cs).isSome = true ↔ rule.AppliesAt before cs := by
  obtain ⟨hopener, hcloser, -⟩ := hrules.literal rule hrule
  rw [Option.isSome_iff_exists]
  constructor
  · rintro ⟨lexeme, hlexeme⟩
    exact (LiteralRule.reads_of_lexeme? hopener hcloser rules hlexeme).1
  · intro happlies
    exact happlies.lexeme?_isSome hopener hcloser

/-- The alternative that starts at a place may start there. -/
theorem FirstAt.applies {a : Alternative} (h : rules.FirstAt before cs a) :
    rules.AppliesAt before cs a := by
  cases a with
  | line => exact h
  | block => exact h.2
  | literal rule => exact h.2.2.1

/-- Only one alternative starts at a place. -/
theorem FirstAt.unique {a b : Alternative} (ha : rules.FirstAt before cs a)
    (hb : rules.FirstAt before cs b) : a = b := by
  cases a with
  | line =>
      cases b with
      | line => rfl
      | block => exact absurd ha hb.1
      | literal rule => exact absurd ha hb.1
  | block =>
      cases b with
      | line => exact absurd hb ha.1
      | block => rfl
      | literal rule => exact absurd ha.2 hb.2.1
  | literal rule =>
      cases b with
      | line => exact absurd hb ha.1
      | block => exact absurd hb.2 ha.2.1
      | literal other =>
          rw [ha.2.2.2.unique hb.2.2.2 ha.2.2.1.2 hb.2.2.1.2]

/-- What is read at a place is what the first alternative there takes. -/
theorem Delimited.first_of_lexemeAt? (hrules : rules.Delimited)
    {lexeme : Lexeme}
    (h : rules.lexemeAt? rules.orderedLiterals before cs = some lexeme) :
    ∃ a, rules.FirstAt before cs a ∧ rules.Reads cs a lexeme := by
  unfold Rules.lexemeAt? at h
  split at h
  · next hline =>
    exact ⟨.line, (Delimiter.opensAt_iff hrules.line).1 hline,
      reads_of_lineLexeme? h⟩
  · next hline =>
    rw [Delimiter.opensAt_iff hrules.line] at hline
    split at h
    · next hblock =>
      rw [Delimiter.opensAt_iff hrules.opener] at hblock
      exact ⟨.block, ⟨hline, hblock⟩, hrules.reads_of_blockLexeme? hblock h⟩
    · next hblock =>
      rw [Delimiter.opensAt_iff hrules.opener] at hblock
      have hfound : (longestFirst (fun rule : LiteralRule => rule.opener.length)
          rules.literals).findSome? (·.lexeme? before cs) = some lexeme := h
      obtain ⟨rule, hrule, hlongest, hlexeme⟩ := findSome?_longest hfound
      obtain ⟨hopener, hcloser, -⟩ := hrules.literal rule hrule
      obtain ⟨happlies, hreads⟩ :=
        LiteralRule.reads_of_lexeme? hopener hcloser rules hlexeme
      refine ⟨.literal rule, ⟨hline, hblock, ⟨hrule, happlies⟩, ?_⟩, hreads⟩
      exact hlongest.imp fun other hother =>
        (hrules.lexeme?_isSome_iff hother).2

/-- The kind of what may start tells comments from literals. -/
theorem Delimited.kind_cases (hrules : rules.Delimited) {a : Alternative}
    (happlies : rules.AppliesAt before cs a) :
    a = .line ∨ a = .block ∨ ∃ rule kind,
      a = .literal rule ∧ rule.kind = .literal kind := by
  cases a with
  | line => exact Or.inl rfl
  | block => exact Or.inr (Or.inl rfl)
  | literal rule =>
      have hliteral := (hrules.literal rule happlies.1).2.2
      cases hkind : rule.kind with
      | literal kind => exact Or.inr (Or.inr ⟨rule, kind, rfl, hkind⟩)
      | code =>
          rw [hkind] at hliteral
          cases hliteral
      | comment kind =>
          rw [hkind] at hliteral
          cases hliteral

/-- Something is read where anything may start. -/
theorem Delimited.lexemeAt?_isSome (hrules : rules.Delimited) {a : Alternative}
    (happlies : rules.AppliesAt before cs a) :
    ∃ lexeme, rules.lexemeAt? rules.orderedLiterals before cs
      = some lexeme := by
  unfold Rules.lexemeAt?
  by_cases hline : rules.lineComment.opensAt cs = true
  · rw [if_pos hline]
    exact hrules.lineLexeme?_isSome
      ((Delimiter.opensAt_iff hrules.line).1 hline)
  · by_cases hblock : rules.blockOpener.opensAt cs = true
    · rw [if_neg hline, if_pos hblock]
      exact hrules.blockLexeme?_isSome cs
    · rw [if_neg hline, if_neg hblock, ← Option.isSome_iff_exists,
        List.findSome?_isSome_iff]
      cases a with
      | line =>
          exact absurd ((Delimiter.opensAt_iff hrules.line).2 happlies) hline
      | block =>
          exact absurd ((Delimiter.opensAt_iff hrules.opener).2 happlies) hblock
      | literal rule =>
          obtain ⟨hrule, happlies⟩ := happlies
          exact ⟨rule, List.mem_mergeSort.2 hrule,
            (hrules.lexeme?_isSome_iff hrule).2 happlies⟩

/-- Nothing is read just where no alternative may start. -/
theorem Delimited.lexemeAt?_none_iff (hrules : rules.Delimited) :
    rules.lexemeAt? rules.orderedLiterals before cs = none
      ↔ ∀ a, ¬ rules.AppliesAt before cs a := by
  constructor
  · intro hnone a happlies
    obtain ⟨lexeme, hlexeme⟩ := hrules.lexemeAt?_isSome happlies
    rw [hnone] at hlexeme
    cases hlexeme
  · intro hnothing
    cases h : rules.lexemeAt? rules.orderedLiterals before cs with
    | none => rfl
    | some lexeme =>
        obtain ⟨a, hfirst, -⟩ := hrules.first_of_lexemeAt? h
        exact absurd hfirst.applies (hnothing a)

/-- What is read is what the alternative that starts there takes. -/
theorem Delimited.lexemeAt?_some_iff (hrules : rules.Delimited)
    {lexeme : Lexeme} :
    rules.lexemeAt? rules.orderedLiterals before cs = some lexeme
      ↔ ∃ a, rules.FirstAt before cs a ∧ rules.Reads cs a lexeme := by
  constructor
  · exact hrules.first_of_lexemeAt?
  · rintro ⟨a, hfirst, chars, rest, hcs, htakes, hkind, hlength⟩
    obtain ⟨found, hfound⟩ := hrules.lexemeAt?_isSome hfirst.applies
    obtain ⟨b, hfirst', chars', rest', hcs', htakes', hkind', hlength'⟩ :=
      hrules.first_of_lexemeAt? hfound
    obtain rfl := hfirst.unique hfirst'
    have hmem : ∀ rule, a = .literal rule → rule ∈ rules.literals := by
      rintro rule rfl
      exact hfirst.applies.1
    obtain ⟨rfl, hunclosed⟩ :=
      hrules.takes_unique hmem htakes htakes' (hcs.symm.trans hcs')
    rw [hfound, Option.some.injEq, Lexeme.mk.injEq]
    exact ⟨hkind'.trans hkind.symm, hlength'.trans hlength.symm, hunclosed.symm⟩

/-- What is read at a place, and what is behind it. -/
theorem Delimited.lexemeAt?_takes (hrules : rules.Delimited) {lexeme : Lexeme}
    (h : rules.lexemeAt? rules.orderedLiterals before cs = some lexeme) :
    ∃ a, rules.FirstAt before cs a ∧ lexeme.kind = a.kind
      ∧ lexeme.length ≤ cs.length
      ∧ rules.Takes a (cs.take lexeme.length) (cs.drop lexeme.length)
        lexeme.unclosed := by
  obtain ⟨a, hfirst, chars, rest, rfl, htakes, hkind, hlength⟩ :=
    hrules.first_of_lexemeAt? h
  refine ⟨a, hfirst, hkind, ?_, ?_⟩
  · rw [hlength, List.length_append]
    omega
  · rw [hlength, List.take_left, List.drop_left]
    exact htakes

end Rules

end Marginalia
