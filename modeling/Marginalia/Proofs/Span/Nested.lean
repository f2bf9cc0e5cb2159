/-
Block comments that nest.

# The grammar

A comment is an opener, then comments and characters at which neither
delimiter stands, and a closer. `CommentTail` is this grammar behind the
opener, which says the same and has no case for a run of parts: a tail is
the closer, or a part and a tail.

# The counter

Reading a comment counts the openers that are not closed yet, and knows
nothing of the grammar. The two meet in `Closes`: with `depth` further
comments open, what is left of the text is one tail behind the other, one for
each open comment (`Closes.tails`), and tails one behind the other close that
many comments (`CommentTail.closes`). Delimiters may share characters, as in
`/*/` and `*/*`, but no character starts both, so each is read as what it is
where the part in front of it ends.
-/
import Marginalia.Proofs.Span.Alternative
import Marginalia.Text.Lines
import Mathlib.Data.List.Basic

namespace Marginalia

-- ======================================================= the grammar

/-- What follows the opener of a comment: comments, and characters at which
no delimiter stands, up to the closer. -/
inductive CommentTail : List Char → Prop where
  | closer : CommentTail ['*', '/']
  | comment {inner rest : List Char} (first : CommentTail inner)
    (more : CommentTail rest) :
    CommentTail ('/' :: '*' :: (inner ++ rest))
  | char {c : Char} {rest : List Char} (unopened : ¬ ['/', '*'] <+: c :: rest)
    (unclosed : ¬ ['*', '/'] <+: c :: rest) (more : CommentTail rest) :
    CommentTail (c :: rest)

/-- A comment, with the comments inside it. -/
def NestedComment (cs : List Char) : Prop :=
  ∃ tail, cs = '/' :: '*' :: tail ∧ CommentTail tail

/-- The tails of a comment and of `depth` comments around it, one behind the
other. -/
def CommentTails : Nat → List Char → Prop
  | 0, cs => CommentTail cs
  | depth + 1, cs =>
    ∃ tail rest, cs = tail ++ rest ∧ CommentTail tail ∧ CommentTails depth rest

theorem CommentTail.length_pos {tail : List Char} (h : CommentTail tail) :
    0 < tail.length := by
  cases h with
  | closer => exact Nat.two_pos
  | comment => exact Nat.succ_pos _
  | char => exact Nat.succ_pos _

/-- A comment in front of tails belongs to the first of them. -/
theorem CommentTails.comment {depth : Nat} {inner rest : List Char}
    (hinner : CommentTail inner) (h : CommentTails depth rest) :
    CommentTails depth ('/' :: '*' :: (inner ++ rest)) := by
  cases depth with
  | zero => exact CommentTail.comment hinner h
  | succ depth =>
      obtain ⟨tail, behind, rfl, htail, hbehind⟩ := h
      refine ⟨'/' :: '*' :: (inner ++ tail), behind, ?_, .comment hinner htail,
        hbehind⟩
      rw [List.cons_append, List.cons_append, List.append_assoc]

/-- So does a character that starts no delimiter. -/
theorem CommentTails.char {depth : Nat} {c : Char} {rest : List Char}
    (unopened : ¬ ['/', '*'] <+: c :: rest)
    (unclosed : ¬ ['*', '/'] <+: c :: rest) (h : CommentTails depth rest) :
    CommentTails depth (c :: rest) := by
  cases depth with
  | zero => exact CommentTail.char unopened unclosed h
  | succ depth =>
      obtain ⟨tail, behind, rfl, htail, hbehind⟩ := h
      have hprefix : c :: tail <+: c :: (tail ++ behind) :=
        List.prefix_append (c :: tail) behind
      refine ⟨c :: tail, behind, rfl, .char ?_ ?_ htail, hbehind⟩
      · exact fun h => unopened (h.trans hprefix)
      · exact fun h => unclosed (h.trans hprefix)

-- ======================================================= the counter

/-- A table whose block comments nest, with the usual delimiters. -/
structure Rules.Nests (rules : Rules) : Prop where
  opener : rules.blockOpener.chars = ['/', '*']
  closer : rules.blockCloser.chars = ['*', '/']
  nests : rules.nestedBlocks = true

/-- Rust and Kotlin are such. -/
theorem Dialect.nests {dialect : Dialect}
    (h : dialect = .rust ∨ dialect = .kotlin) :
    dialect.rules.Nests := by
  rcases h with rfl | rfl
  · exact ⟨rfl, rfl, rfl⟩
  · exact ⟨rfl, rfl, rfl⟩

namespace Rules

variable {rules : Rules}

/-- With `depth` comments open around the innermost one, what closes them is
one tail behind the other. -/
theorem Closes.tails (hrules : rules.Nests) {depth : Nat}
    {body rest : List Char} (h : rules.Closes depth body rest) :
    CommentTails depth body := by
  induction h with
  | closer =>
      rw [hrules.closer]
      exact .closer
  | leave _ ih =>
      rw [hrules.closer]
      exact ⟨_, _, rfl, .closer, ih⟩
  | @enter depth _ _ _ _ _ ih =>
      obtain ⟨tail, behind, rfl, htail, hbehind⟩ := ih
      rw [hrules.opener]
      show CommentTails depth ('/' :: '*' :: (tail ++ behind))
      exact .comment htail hbehind
  | @char depth c body rest unclosed unopened _ ih =>
      rw [hrules.closer] at unclosed
      have hopener := unopened hrules.nests
      rw [hrules.opener] at hopener
      have hprefix : c :: body <+: c :: body ++ rest := List.prefix_append _ _
      refine ih.char ?_ ?_
      · exact fun h => hopener (h.trans hprefix)
      · exact fun h => unclosed (h.trans hprefix)

/-- What closes the `depth` comments around one, in front of a rest: nothing,
if there are none. -/
def ClosesAround (rules : Rules) : Nat → List Char → List Char → Prop
  | 0, body, _ => body = []
  | depth + 1, body, rest => rules.Closes depth body rest

end Rules

variable {rules : Rules}

/-- A tail closes its comment, however many are open around it. -/
theorem CommentTail.closes (hrules : rules.Nests) {tail : List Char}
    (h : CommentTail tail) :
    ∀ (depth : Nat) {body rest : List Char},
      rules.ClosesAround depth body rest →
      rules.Closes depth (tail ++ body) rest := by
  induction h with
  | closer =>
      intro depth body rest hbody
      rw [← hrules.closer]
      cases depth with
      | zero =>
          rw [show body = [] from hbody, List.append_nil]
          exact .closer rest
      | succ depth => exact .leave hbody
  | @comment inner more _ _ ihinner ihmore =>
      intro depth body rest hbody
      -- the comment inside is one with `depth + 1` comments around it
      have hinside := ihinner (depth + 1) (ihmore depth hbody)
      have hopener : '/' :: '*' :: (inner ++ more) ++ body
          = rules.blockOpener.chars ++ (inner ++ (more ++ body)) := by
        rw [hrules.opener, ← List.append_assoc inner]
        rfl
      rw [hopener]
      refine .enter hrules.nests ?_ hinside
      rw [hrules.opener, hrules.closer]
      simp
  | @char c more unopened unclosed hmore ih =>
      intro depth body rest hbody
      have hlength : 2 ≤ (c :: more).length := Nat.succ_le_succ hmore.length_pos
      -- a delimiter at `c` does not go past the tail behind it
      have hnear : ∀ {delimiter : List Char}, delimiter.length ≤ 2 →
          delimiter <+: c :: (more ++ body) ++ rest →
            delimiter <+: c :: more := by
        intro delimiter hle h
        rw [List.cons_append, List.append_assoc, ← List.cons_append] at h
        exact (prefix_append_iff (body ++ rest) (hle.trans hlength)).1 h
      rw [List.cons_append]
      refine .char ?_ (fun _ => ?_) (ih depth hbody)
      · rw [hrules.closer]
        exact fun h => unclosed (hnear (Nat.le_refl 2) h)
      · rw [hrules.opener]
        exact fun h => unopened (hnear (Nat.le_refl 2) h)

/-- There, what closes a comment is the tail of one. -/
theorem Rules.Nests.closes_iff (hrules : rules.Nests) {body rest : List Char} :
    rules.Closes 0 body rest ↔ CommentTail body := by
  constructor
  · exact fun h => h.tails hrules
  · intro h
    have hcloses : rules.Closes 0 (body ++ []) rest := h.closes hrules 0 rfl
    rwa [List.append_nil] at hcloses

/-- The end that is found behind an opener is where a tail ends. -/
theorem Rules.Nests.blockBodyLength?_iff (hrules : rules.Nests)
    {body : List Char} {n : Nat} :
    rules.blockBodyLength? body = some n
      ↔ n ≤ body.length ∧ CommentTail (body.take n) := by
  have hcloser : rules.blockCloser.chars ≠ [] := by simp [hrules.closer]
  have hopener : rules.blockOpener.chars ≠ [] := by simp [hrules.opener]
  rw [Rules.blockBodyLength?_iff hcloser hopener]
  constructor
  · rintro ⟨tail, rest, rfl, hcloses, rfl⟩
    rw [List.take_left, List.length_append]
    exact ⟨Nat.le_add_right _ _, hrules.closes_iff.1 hcloses⟩
  · rintro ⟨hle, htail⟩
    exact ⟨body.take n, body.drop n, (List.take_append_drop n body).symm,
      hrules.closes_iff.2 htail, List.length_take_of_le hle⟩

-- ======================================================= in the text

/-- The start of a text is a nested comment just if a tail stands behind
its opener. -/
theorem nestedComment_take_iff {body : List Char} {length : Nat} :
    NestedComment (('/' :: '*' :: body).take length)
      ↔ ∃ n, length = n + 2 ∧ CommentTail (body.take n) := by
  constructor
  · rintro ⟨tail, hcs, htail⟩
    match length with
    | 0 => cases hcs
    | 1 => cases hcs
    | n + 2 =>
        rw [List.take_succ_cons, List.take_succ_cons] at hcs
        injection hcs with _ hcs
        injection hcs with _ hcs
        exact ⟨n, rfl, hcs ▸ htail⟩
  · rintro ⟨n, rfl, htail⟩
    exact ⟨body.take n, rfl, htail⟩

namespace Rules.Nests

variable (hrules : rules.Nests) {text body : List Char} {pos : Nat}

include hrules

/-- An end in the text, as one behind the opener. -/
theorem nestedComment_slice_iff (hbody : text.drop pos = '/' :: '*' :: body)
    {stop : Nat} (hstop : stop ≤ text.length) :
    NestedComment (Text.slice text pos stop)
      ↔ ∃ n, rules.blockBodyLength? body = some n ∧ stop = pos + (2 + n) := by
  have hlength : text.length - pos = body.length + 2 := by
    rw [← List.length_drop, hbody]
    rfl
  simp only [Text.slice, hbody, nestedComment_take_iff,
    hrules.blockBodyLength?_iff]
  constructor
  · rintro ⟨n, hn, htail⟩
    exact ⟨n, ⟨by omega, htail⟩, by omega⟩
  · rintro ⟨n, ⟨-, htail⟩, rfl⟩
    exact ⟨n, by omega, htail⟩

/-- What an opener opens is a block comment, closed if an end was found. -/
theorem blockLexeme?_opened (body : List Char) :
    ∃ lexeme, rules.blockLexeme? ('/' :: '*' :: body) = some lexeme
      ∧ lexeme.kind = .comment .block
      ∧ (∀ n, rules.blockBodyLength? body = some n →
        lexeme.unclosed = none ∧ lexeme.length = 2 + n)
      ∧ (rules.blockBodyLength? body = none →
        lexeme.unclosed = some .comment ∧ lexeme.length = 2 + body.length) := by
  have hopener : rules.blockOpener.length = 2 := by
    rw [Delimiter.length, hrules.opener]
    rfl
  unfold blockLexeme?
  simp only [hopener, List.drop_succ_cons, List.drop_zero]
  cases hend : rules.blockBodyLength? body with
  | some n =>
      refine ⟨⟨.comment .block, 2 + n, none, by omega⟩, dif_pos _, rfl,
        ?_, nofun⟩
      intro found hfound
      rw [Option.some.inj hfound]
      exact ⟨rfl, rfl⟩
  | none =>
      exact ⟨⟨.comment .block, 2 + body.length, some .comment, by omega⟩,
        dif_pos _, rfl, nofun, fun _ => ⟨rfl, rfl⟩⟩

end Rules.Nests

/-- Where comments nest, a block comment closes exactly where the grammar has
its end, which it has in one place at most, and if it has none the text ends
inside the comment. -/
theorem nested_block_comment_closes_iff {dialect : Dialect}
    (hdialect : dialect = .rust ∨ dialect = .kotlin) {text : List Char}
    {pos : Nat} (hopens : ['/', '*'] <+: text.drop pos) :
    ∃ lexeme, dialect.rules.blockLexeme? (text.drop pos) = some lexeme
      ∧ lexeme.kind = .comment .block
      ∧ (∀ stop ≤ text.length,
        lexeme.unclosed = none ∧ pos + lexeme.length = stop
          ↔ NestedComment (Text.slice text pos stop))
      ∧ (∀ stop ≤ text.length, ∀ stop' ≤ text.length,
        NestedComment (Text.slice text pos stop) →
        NestedComment (Text.slice text pos stop') →
          stop = stop')
      ∧ ((∀ stop ≤ text.length, ¬ NestedComment (Text.slice text pos stop)) →
        lexeme.unclosed = some .comment
          ∧ pos + lexeme.length = text.length) := by
  have hrules := Dialect.nests hdialect
  obtain ⟨body, happend⟩ := hopens
  have hbody : text.drop pos = '/' :: '*' :: body := happend.symm
  have hslice : ∀ stop ≤ text.length, NestedComment (Text.slice text pos stop)
      ↔ ∃ n, dialect.rules.blockBodyLength? body = some n
        ∧ stop = pos + (2 + n) :=
    fun stop hstop => hrules.nestedComment_slice_iff hbody hstop
  obtain ⟨lexeme, hlexeme, hkind, hclosed, hunclosed⟩ :=
    hrules.blockLexeme?_opened body
  rw [hbody]
  refine ⟨lexeme, hlexeme, hkind, ?_, ?_, ?_⟩
  · intro stop hstop
    rw [hslice stop hstop]
    cases hend : dialect.rules.blockBodyLength? body with
    | some n =>
        obtain ⟨hnone, hlength⟩ := hclosed n hend
        simp [hnone, hlength, eq_comm]
    | none => simp [(hunclosed hend).1]
  · intro stop hstop stop' hstop' h h'
    obtain ⟨n, hn, rfl⟩ := (hslice stop hstop).1 h
    obtain ⟨n', hn', rfl⟩ := (hslice stop' hstop').1 h'
    rw [Option.some.inj (hn.symm.trans hn')]
  · intro hnowhere
    have hlength : text.length - pos = body.length + 2 := by
      rw [← List.length_drop, hbody]
      rfl
    cases hend : dialect.rules.blockBodyLength? body with
    | some n =>
        have hle := (hrules.blockBodyLength?_iff.1 hend).1
        have hstop : pos + (2 + n) ≤ text.length := by omega
        exact absurd ((hslice _ hstop).2 ⟨n, hend, rfl⟩) (hnowhere _ hstop)
    | none =>
        obtain ⟨hcomment, hwhole⟩ := hunclosed hend
        exact ⟨hcomment, by omega⟩

/-- Delimiters that share characters: the star in `/*/` opens and does not
close, and the slash in `*/*` closes and does not open. -/
theorem nested_comment_with_shared_characters :
    ∃ lexeme, Dialect.kotlin.rules.blockLexeme? ("a/*/**/*/b".toList.drop 1)
      = some lexeme
      ∧ lexeme.unclosed = none ∧ 1 + lexeme.length = 9
      ∧ NestedComment "/*/**/*/".toList := by
  have hnested : NestedComment "/*/**/*/".toList :=
    ⟨_, rfl, .comment .closer .closer⟩
  have hopens : ['/', '*'] <+: "a/*/**/*/b".toList.drop 1 := by decide
  obtain ⟨lexeme, hlexeme, -, hcloses, -⟩ :=
    nested_block_comment_closes_iff (.inr rfl) hopens
  obtain ⟨hclosed, hlength⟩ := (hcloses 9 (by decide)).2 hnested
  exact ⟨lexeme, hlexeme, hclosed, hlength, hnested⟩

end Marginalia
