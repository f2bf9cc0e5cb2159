/-
What makes a comment a doc comment.

The style of a comment is a matter of its line and its first characters: a
comment behind code or a literal on its line is ignored, one that opens with a
doc marker is a doc comment, and all others are plain. The reading looks at
other things. It remembers one line number (`SeenCode.trails`), and it tells the
empty comment `/**/` from a doc comment by its length, where the rule asks for
the character behind the two stars. The length will do because a closer right
behind the opener ends the comment, whether comments nest or not
(`Delimited.closer_ends`).
-/
import Marginalia.Proofs.Comment.Runs
import Marginalia.Proofs.Scan.Located

namespace Marginalia

-- ========================================================== the rule

/-- Code or a literal stands in front of the span on its line: a visible
character of one, and no line feed up to the span. -/
def FollowsCode (text : List Char) (spans : List Span) (span : Span) : Prop :=
  ∃ offset < span.start,
    codeAt spans offset = true ∧ '\n' ∉ Text.slice text offset span.start

instance (text : List Char) (spans : List Span) (span : Span) :
    Decidable (FollowsCode text spans span) :=
  inferInstanceAs (Decidable (∃ offset < span.start, _))

/-- The comment starts with the opening, and none of the characters follows. -/
def OpensBefore (opening barred raw : List Char) : Prop :=
  ∃ rest, raw = opening ++ rest ∧ ∀ c ∈ rest.head?, c ∉ barred

instance (opening barred raw : List Char) :
    Decidable (OpensBefore opening barred raw) :=
  decidable_of_iff (opening <+: raw
    ∧ (raw.drop opening.length).head?.all (· ∉ barred) = true) <| by
    simp only [Option.all_eq_true, decide_eq_true_eq]
    constructor
    · rintro ⟨⟨rest, rfl⟩, hnext⟩
      rw [List.drop_left] at hnext
      exact ⟨rest, rfl, hnext⟩
    · rintro ⟨rest, rfl, hnext⟩
      rw [List.drop_left]
      exact ⟨List.prefix_append _ _, hnext⟩

/-- The dialects with an exclamation mark among their doc markers. -/
def Dialect.marksWithBang : Dialect → Bool
  | .c | .cpp | .rust => true
  | .csharp | .java | .javascript | .typescript | .kotlin => false

/-- The comment opens like a doc comment of its kind. -/
def Dialect.OpensDoc (dialect : Dialect) (raw : List Char) : CommentKind → Prop
  | .line => OpensBefore ['/', '/', '/'] ['/'] raw
    ∨ dialect.marksWithBang = true ∧ OpensBefore ['/', '/', '!'] ['!'] raw
  | .block => OpensBefore ['/', '*', '*'] ['*', '/'] raw
    ∨ dialect.marksWithBang = true ∧ OpensBefore ['/', '*', '!'] ['!'] raw

instance (dialect : Dialect) (raw : List Char) (kind : CommentKind) :
    Decidable (dialect.OpensDoc raw kind) :=
  match kind with
  | .line => instDecidableOr
  | .block => instDecidableOr

/-- The style that the rule gives to a comment, if it follows code or not, and
opens like a doc comment or not. -/
structure Styled (follows opensDoc : Prop) (style : CommentStyle) : Prop where
  ignored : style = .ignored ↔ follows
  doc : style = .doc ↔ ¬ follows ∧ opensDoc
  plain : style = .plain ↔ ¬ follows ∧ ¬ opensDoc

-- ============================================================= lines

/-- Two places are on one line if no line feed is between them. -/
theorem Text.Lines.lineOf_eq_iff (text : List Char) {a b : Nat} (h : a ≤ b) :
    (Lines.ofText text).lineOf a = (Lines.ofText text).lineOf b
      ↔ '\n' ∉ Text.slice text a b := by
  have htake : text.take b = text.take a ++ Text.slice text a b := by
    rw [Text.slice, ← List.take_add, Nat.add_sub_cancel' h]
  rw [lineOf_eq_lineAt, lineOf_eq_lineAt, Text.lineAt, Text.lineAt, htake,
    List.count_append, ← List.count_eq_zero]
  omega

theorem trailsCode_iff {text : List Char} {spans : List Span} {span : Span} :
    trailsCode (.ofText text) spans span = true
      ↔ FollowsCode text spans span := by
  rw [trailsCode, List.any_eq_true]
  refine exists_congr fun offset => ?_
  rw [List.mem_range, Bool.and_eq_true, beq_iff_eq]
  refine and_congr_right fun hlt => and_congr_right fun _ => ?_
  exact Text.Lines.lineOf_eq_iff text (Nat.le_of_lt hlt)

-- ========================================================== verdicts

section

variable {rules : Rules} {kind : CommentKind} {raw : List Char}

/-- A verdict follows the rule, doc comments being those that a marker opens. -/
theorem verdict_styled (trailing : Bool) :
    Styled (trailing = true)
      (∃ marker ∈ rules.markers,
        marker.kind = .comment kind ∧ rules.opens marker raw = true)
      (rules.verdict kind raw trailing).style := by
  cases trailing with
  | true =>
      have hverdict : rules.verdict kind raw true = .ignored := rfl
      rw [hverdict]
      constructor <;> simp [Verdict.style]
  | false =>
      rw [verdict_eq]
      cases hfound : rules.markers.find? fun m => m.kind == .comment kind
        && rules.opens m raw with
      | none =>
          have hnone := List.find?_eq_none.1 hfound
          have hunmarked : ¬ ∃ marker ∈ rules.markers,
              marker.kind = .comment kind
              ∧ rules.opens marker raw = true := by
            rintro ⟨marker, hmem, hkind, hopens⟩
            exact hnone marker hmem
              (by rw [hkind, hopens, beq_self_eq_true]; rfl)
          constructor <;> simp [Verdict.style, hunmarked]
      | some marker =>
          have hopens := List.find?_some hfound
          rw [Bool.and_eq_true, beq_iff_eq] at hopens
          have hmarked : ∃ marker ∈ rules.markers, marker.kind = .comment kind
              ∧ rules.opens marker raw = true :=
            ⟨marker, List.mem_of_find?_eq_some hfound, hopens⟩
          constructor <;> simp [Verdict.style, hmarked]

/-- A marker opens a comment that starts with it, unless its last character
follows once more, or it shares characters with the closer of a block. -/
theorem opens_iff {marker : DocMarker} {last : Char}
    (hlast : marker.opener.last? = some last) :
    rules.opens marker raw = true ↔ OpensBefore marker.opener.chars [last] raw
      ∧ (marker.kind = .comment .block → rules.blockCloser.chars <:+ raw →
        marker.opener.length + rules.blockCloser.length ≤ raw.length) := by
  have hempty : marker.opener.isEmpty = false := by
    rw [Delimiter.isEmpty, List.isEmpty_eq_false_iff]
    rintro hnil
    rw [Delimiter.last?, hnil] at hlast
    cases hlast
  rw [Rules.opens, hempty, hlast, Bool.false_or, Bool.and_eq_true,
    Bool.and_eq_true, Delimiter.startsAt_iff]
  refine and_congr ⟨?_, ?_⟩ ?_
  · rintro ⟨⟨rest, rfl⟩, hnext⟩
    refine ⟨rest, rfl, fun c hc => ?_⟩
    rw [Delimiter.length, List.drop_left, bne_iff_ne] at hnext
    rw [List.mem_singleton]
    rintro rfl
    exact hnext hc
  · rintro ⟨rest, rfl, hnext⟩
    refine ⟨List.prefix_append _ _, ?_⟩
    rw [Delimiter.length, List.drop_left, bne_iff_ne]
    exact fun hc => hnext last hc (List.mem_singleton_self last)
  · rw [Bool.or_eq_true, Bool.or_eq_true, bne_iff_ne, Bool.not_eq_true',
      decide_eq_true_iff, ← Bool.not_eq_true, Delimiter.endsAt,
      List.isSuffixOf_iff_suffix]
    tauto

end

-- ================================================= the empty comment

namespace Rules

variable {rules : Rules}

/-- Where a closer stands right behind the opener, the comment is over. -/
theorem Closes.eq_closer {body rest : List Char} (h : rules.Closes 0 body rest)
    (hcloser : rules.blockCloser.chars <+: body ++ rest) :
    body = rules.blockCloser.chars := by
  cases h with
  | closer => rfl
  | enter _ unclosed => exact absurd hcloser unclosed
  | char unclosed => exact absurd hcloser unclosed

/-- A block comment with a closer right behind its opener has nothing else. -/
theorem Delimited.closer_ends (hrules : rules.Delimited) {text : List Char}
    {span : Span} (hspan : span ∈ rules.spans text)
    (hkind : span.kind = .comment .block)
    (h : rules.blockOpener.chars ++ rules.blockCloser.chars <+: span.chars) :
    span.chars = rules.blockOpener.chars ++ rules.blockCloser.chars := by
  obtain ⟨-, htakes⟩ := hrules.comment_takes hspan hkind
  generalize text.drop span.stop = rest at htakes
  generalize span.unclosed = unclosed at htakes
  generalize span.chars = chars at htakes h ⊢
  cases htakes with
  | @block body rest closes =>
      have hbody := (List.prefix_append_right_inj _).1 h
      rw [closes.eq_closer (hbody.trans (List.prefix_append body rest))]
  | @openBlock body unclosed =>
      obtain ⟨more, rfl⟩ := (List.prefix_append_right_inj _).1 h
      exact absurd (.closer more) (unclosed _ _ rfl)

end Rules

-- ========================================================= the table

section

variable (dialect : Dialect) {kind : CommentKind} {raw : List Char}

/-- All dialects delimit block comments alike. -/
theorem Dialect.block_delimiters :
    dialect.rules.blockOpener = ⟨['/', '*']⟩
      ∧ dialect.rules.blockCloser = ⟨['*', '/']⟩ := by
  cases dialect <;> exact ⟨rfl, rfl⟩

/-- The marker of a kind of comment in every dialect. -/
def CommentKind.marker : CommentKind → DocMarker
  | .line => tripleSlash
  | .block => doubleStar

/-- The marker that only some dialects have. -/
def CommentKind.bangMarker : CommentKind → DocMarker
  | .line => slashBang
  | .block => starBang

/-- A dialect has one marker or two for a kind of comment, whatever their
placement. -/
theorem Dialect.exists_marker {p : DocMarker → Prop}
    (hp : ∀ marker placement, p { marker with placement := placement }
      ↔ p marker) :
    (∃ marker ∈ dialect.rules.markers, marker.kind = .comment kind ∧ p marker)
      ↔ p kind.marker ∨ dialect.marksWithBang = true ∧ p kind.bangMarker := by
  have hslash := hp slashBang .inner
  have hstar := hp starBang .inner
  simp only [slashBang, starBang] at hslash hstar
  cases dialect <;> cases kind <;>
    simp [Dialect.rules, marksWithBang, CommentKind.marker,
      CommentKind.bangMarker, tripleSlash, doubleStar, slashBang, starBang,
      hslash, hstar]

/-- A closer at the end of a comment is behind the three characters that open
it, unless it shares its first with them, or both. -/
theorem closer_behind_opening {a b c : Char} {rest : List Char}
    (h : ['*', '/'] <:+ [a, b, c] ++ rest) :
    2 ≤ rest.length ∨ rest = [] ∧ c = '/' ∨ rest = ['/'] ∧ c = '*' := by
  match rest with
  | [] =>
      simp [List.suffix_cons_iff] at h
      exact .inr (.inl ⟨rfl, h.2.symm⟩)
  | [d] =>
      simp [List.suffix_cons_iff] at h
      exact .inr (.inr ⟨by rw [h.2], h.1.symm⟩)
  | _ :: _ :: _ => exact .inl (by simp)

theorem Dialect.opens_line {marker : DocMarker} {last : Char}
    (hkind : marker.kind = .comment .line)
    (hlast : marker.opener.last? = some last) :
    dialect.rules.opens marker raw = true
      ↔ OpensBefore marker.opener.chars [last] raw := by
  rw [opens_iff hlast, hkind]
  simp

theorem Dialect.opens_starBang :
    dialect.rules.opens starBang raw = true
      ↔ OpensBefore ['/', '*', '!'] ['!'] raw := by
  rw [opens_iff rfl, dialect.block_delimiters.2]
  refine and_iff_left_of_imp ?_
  rintro ⟨rest, rfl, -⟩ - hcloser
  rcases closer_behind_opening hcloser with hroom | ⟨-, hc⟩ | ⟨-, hc⟩
  · simpa [starBang, Delimiter.length] using hroom
  · cases hc
  · cases hc

/-- The length keeps out `/**/` and no other comment. -/
theorem Dialect.opens_doubleStar
    (hempty : ['/', '*', '*', '/'] <+: raw → raw = ['/', '*', '*', '/']) :
    dialect.rules.opens doubleStar raw = true
      ↔ OpensBefore ['/', '*', '*'] ['*', '/'] raw := by
  rw [opens_iff rfl, dialect.block_delimiters.2]
  constructor
  · rintro ⟨⟨rest, rfl, hnext⟩, hroom⟩
    refine ⟨rest, rfl, fun c hc hbarred => ?_⟩
    rcases List.mem_pair.1 hbarred with rfl | rfl
    · exact hnext _ hc (List.mem_singleton_self _)
    · obtain ⟨more, rfl⟩ : ∃ more, rest = '/' :: more :=
        List.head?_eq_some_iff.1 hc
      have hraw := hempty (List.prefix_append ['/', '*', '*', '/'] more)
      rw [show doubleStar.opener.chars ++ '/' :: more = _ from hraw] at hroom
      exact absurd (hroom rfl ⟨['/', '*'], rfl⟩) (by decide)
  · rintro ⟨rest, rfl, hnext⟩
    refine ⟨⟨rest, rfl, fun c hc hstar => ?_⟩, fun _ hcloser => ?_⟩
    · rw [List.mem_singleton.1 hstar] at hc
      exact hnext _ hc List.mem_cons_self
    · rcases closer_behind_opening hcloser with hroom | ⟨-, hc⟩ | ⟨rfl, -⟩
      · simpa [doubleStar, Delimiter.length] using hroom
      · cases hc
      · exact absurd (by decide) (hnext '/' rfl)

/-- The markers of a dialect open the comments that the rule calls doc
comments. -/
theorem Dialect.opensDoc_iff
    (hempty : kind = .block → ['/', '*', '*', '/'] <+: raw →
      raw = ['/', '*', '*', '/']) :
    (∃ marker ∈ dialect.rules.markers,
        marker.kind = .comment kind ∧ dialect.rules.opens marker raw = true)
      ↔ dialect.OpensDoc raw kind := by
  rw [dialect.exists_marker fun _ _ => Iff.rfl]
  cases kind with
  | line =>
      refine or_congr ?_ (and_congr_right fun _ => ?_)
      · exact dialect.opens_line rfl rfl
      · exact dialect.opens_line rfl rfl
  | block =>
      refine or_congr ?_ (and_congr_right fun _ => ?_)
      · exact dialect.opens_doubleStar (hempty rfl)
      · exact dialect.opens_starBang

end

-- ====================================================== the comments

/-- Every comment span is in a comment. -/
theorem exists_comment_holds {rules : Rules} {text : List Char}
    (hrules : rules.Delimited) (hmerges : rules.mergesLineComments = true)
    {span : Span} (hspan : span ∈ rules.spans text)
    (hcomment : span.kind.isComment = true) : ∃ c ∈ rules.commentsOf text,
      c.holds span = true := by
  have hflat : span ∈ (rules.groups text).flatten := by
    rw [Rules.groups, List.flatten_splitBy]
    exact List.mem_filter.2 ⟨hspan, hcomment⟩
  obtain ⟨group, hgroup, hmem⟩ := List.mem_flatten.1 hflat
  obtain ⟨c, hc, hmerged⟩ := group_comment hmerges hgroup
  refine ⟨c, hc, ?_⟩
  rw [← (covered_group hrules hgroup hmerged).1, Comment.covered,
    List.mem_filter, Bool.and_eq_true] at hmem
  exact hmem.2.2

/-- A comment has the kind of each span that it holds, and the style that the
span has alone. -/
theorem comment_judges_held {rules : Rules} {text : List Char}
    (hrules : rules.Delimited) (hmerges : rules.mergesLineComments = true)
    {span : Span} (hspan : span ∈ rules.spans text) {kind : CommentKind}
    (hkind : span.kind = .comment kind) {c : Comment}
    (hc : c ∈ rules.commentsOf text) (hholds : c.holds span = true) :
    c.kind = kind ∧ c.style = (rules.judge text kind span).style := by
  obtain ⟨group, hgroup, hmerged⟩ := comment_group hmerges hc
  obtain ⟨hcovered, hmade⟩ := covered_group hrules hgroup hmerged
  have hmem : span ∈ group := by
    rw [← hcovered, Comment.covered, List.mem_filter, hkind, hholds]
    exact ⟨hspan, rfl⟩
  obtain ⟨halike, hstyle, -⟩ := hmade.alike span hmem
  obtain rfl : kind = c.kind := by
    rw [hkind] at halike
    injection halike
  exact ⟨rfl, hstyle.symm⟩

/-- In each dialect, every comment span belongs to a comment, and its line and
its first characters decide the style of that comment: ignored behind code or a
literal, and else doc or plain by the characters that open it. -/
theorem comment_spans_styled_by_opening (dialect : Dialect) (text : List Char) :
    let rules := dialect.rules
    ∀ span ∈ rules.spans text, ∀ kind, span.kind = .comment kind →
      (∃ c ∈ rules.commentsOf text, c.holds span = true)
        ∧ ∀ c ∈ rules.commentsOf text, c.holds span = true →
          c.kind = kind ∧ Styled (FollowsCode text (rules.spans text) span)
            (dialect.OpensDoc span.chars kind) c.style := by
  intro rules span hspan kind hkind
  have hrules : rules.Delimited := dialect.delimited
  have hmerges : rules.mergesLineComments = true := by
    cases dialect <;> rfl
  refine ⟨exists_comment_holds hrules hmerges hspan (by rw [hkind]; rfl),
    fun c hc hholds => ?_⟩
  obtain ⟨hsame, hstyle⟩ :=
    comment_judges_held hrules hmerges hspan hkind hc hholds
  have hempty : kind = .block → ['/', '*', '*', '/'] <+: span.chars →
      span.chars = ['/', '*', '*', '/'] := by
    rintro rfl hstarts
    obtain ⟨hopener, hcloser⟩ := dialect.block_delimiters
    have hends := hrules.closer_ends hspan hkind
    rw [hopener, hcloser] at hends
    exact hends hstarts
  refine ⟨hsame, ?_⟩
  rw [← trailsCode_iff, ← dialect.opensDoc_iff hempty, hstyle]
  exact verdict_styled _

namespace AroundEmpty

def text : List Char := "\"\n\" /** a */\n/**/ /*! b */".toList

def trailing : Span :=
  { kind := .comment .block, start := 4, chars := "/** a */".toList }

def empty : Span :=
  { kind := .comment .block, start := 13, chars := "/**/".toList }

def marked : Span :=
  { kind := .comment .block, start := 18, chars := "/*! b */".toList }

theorem spans_eq : Dialect.rust.rules.spans text
    = [{ kind := .literal .string, start := 0, chars := "\"\n\"".toList },
      { kind := .code, start := 3, chars := [' '] }, trailing,
      { kind := .code, start := 12, chars := ['\n'] }, empty,
      { kind := .code, start := 17, chars := [' '] }, marked] := by
  rw [Dialect.spans_eq]
  decide +kernel

end AroundEmpty

open AroundEmpty in
/-- The end of a literal that starts a line above hides the comment behind it,
and an empty comment does not hide the next. -/
theorem empty_comment_between_styles :
    (∃ c ∈ Dialect.rust.rules.commentsOf text,
      c.holds trailing = true ∧ c.style = .ignored)
      ∧ (∃ c ∈ Dialect.rust.rules.commentsOf text,
        c.holds empty = true ∧ c.style = .plain)
      ∧ ∃ c ∈ Dialect.rust.rules.commentsOf text,
        c.holds marked = true ∧ c.style = .doc := by
  have hstyled := comment_spans_styled_by_opening .rust text
  simp only [spans_eq] at hstyled
  refine ⟨?_, ?_, ?_⟩
  · obtain ⟨⟨c, hc, hholds⟩, hrule⟩ := hstyled trailing (by simp) .block rfl
    exact ⟨c, hc, hholds, (hrule c hc hholds).2.ignored.2 (by decide +kernel)⟩
  · obtain ⟨⟨c, hc, hholds⟩, hrule⟩ := hstyled empty (by simp) .block rfl
    exact ⟨c, hc, hholds, (hrule c hc hholds).2.plain.2 (by decide +kernel)⟩
  · obtain ⟨⟨c, hc, hholds⟩, hrule⟩ := hstyled marked (by simp) .block rfl
    exact ⟨c, hc, hholds, (hrule c hc hholds).2.doc.2 (by decide +kernel)⟩

end Marginalia
