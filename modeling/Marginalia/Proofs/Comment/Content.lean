/-
The text of a block comment.

Where a block comment ends is found when the spans are cut, but its text is
taken later, from the characters of the span alone: a closer at its end comes
off if there is room for it behind the opener. On a closed comment the two
agree, whatever its marker. They agree on an open one too where comments do
not nest, for then it holds no closer. Where they nest, an open comment may
end in the closer of a comment inside it, and loses it
(`block_comment_text`).
-/
import Marginalia.Proofs.Comment.Runs

namespace Marginalia

-- =========================================================== closers

namespace Rules

variable {rules : Rules}

/-- Where comments do not nest, any closer closes one. -/
theorem exists_closes (hnests : rules.nestedBlocks = false)
    (front back : List Char) :
    ∃ body rest, front ++ (rules.blockCloser.chars ++ back) = body ++ rest
      ∧ rules.Closes 0 body rest := by
  induction front with
  | nil => exact ⟨rules.blockCloser.chars, back, rfl, .closer back⟩
  | cons c front ih =>
      by_cases hcloser :
          rules.blockCloser.chars
            <+: c :: (front ++ (rules.blockCloser.chars ++ back))
      · obtain ⟨rest, hrest⟩ := hcloser
        exact ⟨rules.blockCloser.chars, rest, hrest.symm, .closer rest⟩
      · obtain ⟨body, rest, hbody, hcloses⟩ := ih
        refine ⟨c :: body, rest, congrArg (c :: ·) hbody,
          .char ?_ (fun h => ?_) hcloses⟩
        · rw [List.cons_append, ← hbody]
          exact hcloser
        · rw [hnests] at h
          cases h

/-- A block comment and whether it is closed. -/
theorem Delimited.block_comment (hrules : rules.Delimited) {text : List Char}
    {span : Span} (hspan : span ∈ rules.spans text)
    (hkind : span.kind = .comment .block) :
    ∃ body, span.chars = rules.blockOpener.chars ++ body
      ∧ (span.unclosed = none → rules.blockCloser.chars <:+ body)
      ∧ (span.unclosed ≠ none → rules.blockCloser.chars <:+ body →
        rules.nestedBlocks = true) := by
  obtain ⟨-, htakes⟩ := hrules.comment_takes hspan hkind
  generalize text.drop span.stop = rest at htakes
  generalize span.unclosed = unclosed at htakes ⊢
  generalize span.chars = chars at htakes ⊢
  cases htakes with
  | @block body rest closes =>
      exact ⟨body, rfl, fun _ => closes.closer_suffix, fun h => absurd rfl h⟩
  | @openBlock body unclosed =>
      refine ⟨body, rfl, fun h => (nomatch h), fun _ hsuffix => ?_⟩
      by_contra hnests
      obtain ⟨front, hfront⟩ := hsuffix
      obtain ⟨inside, rest, hbody, hcloses⟩ :=
        exists_closes (Bool.eq_false_iff.2 hnests) front []
      rw [List.append_nil, hfront] at hbody
      exact unclosed inside rest hbody hcloses

-- =========================================================== content

/-- A closer comes off a comment that opens with the delimiter. -/
def Strips (rules : Rules) (opener : Delimiter) (raw : List Char) : Prop :=
  rules.blockCloser.chars <:+ raw
    ∧ opener.length + rules.blockCloser.length ≤ raw.length

theorem Strips.contentOf {opener : Delimiter} {raw : List Char}
    (h : rules.Strips opener raw) (hopener : opener.chars <+: raw) :
    raw = opener.chars ++ rules.contentOf .block opener.length raw
      ++ rules.blockCloser.chars := by
  obtain ⟨rest, rfl⟩ := hopener
  obtain ⟨hsuffix, hroom⟩ := h
  have hlength : rules.blockCloser.chars.length ≤ rest.length := by
    rw [Delimiter.length, Delimiter.length, List.length_append] at hroom
    omega
  obtain ⟨content, rfl⟩ :=
    List.suffix_of_suffix_length_le hsuffix (List.suffix_append _ _) hlength
  have hends : rules.blockCloser.endsAt
      (opener.chars ++ (content ++ rules.blockCloser.chars))
      = true := List.isSuffixOf_iff_suffix.2 hsuffix
  have htake : (opener.chars ++ (content ++ rules.blockCloser.chars)).length
      - rules.blockCloser.length - opener.length = content.length := by
    simp only [List.length_append, Delimiter.length]
    omega
  rw [Rules.contentOf, hends, decide_eq_true hroom, if_pos (by decide), htake,
    Delimiter.length, List.drop_left, List.take_left, List.append_assoc]

theorem contentOf_of_not_strips {opener : Delimiter} {raw : List Char}
    (h : ¬ rules.Strips opener raw) (hopener : opener.chars <+: raw) :
    raw = opener.chars ++ rules.contentOf .block opener.length raw := by
  have hcond : ¬ (CommentKind.block == .block && rules.blockCloser.endsAt raw
      && decide (opener.length + rules.blockCloser.length ≤ raw.length))
        = true := by
    rw [Bool.and_eq_true, Bool.and_eq_true, decide_eq_true_iff]
    exact fun ⟨⟨_, hends⟩, hroom⟩ =>
      h ⟨List.isSuffixOf_iff_suffix.1 hends, hroom⟩
  rw [Rules.contentOf, if_neg hcond]
  exact (List.prefix_iff_eq_append.1 hopener).symm

/-- Block markers start like block comments. -/
def MarkersOpen (rules : Rules) : Prop :=
  ∀ marker ∈ rules.markers, marker.kind = .comment .block →
    rules.blockOpener.chars <+: marker.opener.chars

/-- A closer comes off where one stands behind the opener of all block
comments, whichever marker the comment has. -/
theorem MarkersOpen.strips_iff (hmarkers : rules.MarkersOpen) (body : List Char)
    (trailing : Bool) :
    rules.Strips (rules.opening .block
        (rules.verdict .block (rules.blockOpener.chars ++ body) trailing))
        (rules.blockOpener.chars ++ body)
      ↔ rules.blockCloser.chars <:+ body := by
  generalize hraw : rules.blockOpener.chars ++ body = raw
  have hbody : body <:+ raw := ⟨_, hraw⟩
  have hlength : raw.length = rules.blockOpener.length + body.length := by
    rw [← hraw, List.length_append, Delimiter.length]
  have hopener : rules.blockOpener.length
      ≤ (rules.opening .block (rules.verdict .block raw trailing)).length := by
    cases hverdict : rules.verdict .block raw trailing with
    | plain | ignored => exact Nat.le_refl _
    | doc marker =>
        obtain ⟨hmem, hkind, -⟩ := verdict_eq_doc hverdict
        exact (hmarkers marker hmem hkind).length_le
  constructor
  · rintro ⟨hsuffix, hroom⟩
    refine List.suffix_of_suffix_length_le hsuffix hbody ?_
    change rules.blockCloser.length ≤ body.length
    omega
  · intro hsuffix
    have hle : rules.blockCloser.length ≤ body.length := hsuffix.length_le
    refine ⟨hsuffix.trans hbody, ?_⟩
    cases hverdict : rules.verdict .block raw trailing with
    | plain | ignored =>
        change rules.blockOpener.length + _ ≤ _
        omega
    | doc marker =>
        obtain ⟨hmem, hkind, hopens⟩ := verdict_eq_doc hverdict
        change marker.opener.length + _ ≤ _
        have hends : rules.blockCloser.endsAt raw = true :=
          List.isSuffixOf_iff_suffix.2 (hsuffix.trans hbody)
        rw [opens, Bool.or_eq_true, Bool.and_eq_true, hkind, hends] at hopens
        rcases hopens with hempty | ⟨-, hroom⟩
        · rw [Delimiter.isEmpty, List.isEmpty_iff] at hempty
          rw [Delimiter.length, hempty, List.length_nil]
          omega
        · simpa using hroom

end Rules

-- =========================================================== markers

/-- Markers given in place of a table's own. -/
theorem Rules.MarkersOpen.markersFor {rules : Rules} (h : rules.MarkersOpen)
    {placement : Placement} {given : Option (List String)}
    {markers : List DocMarker}
    (hgiven : rules.markersFor placement given = .ok markers) :
    ∀ marker ∈ markers, marker.kind = .comment .block →
      rules.blockOpener.chars <+: marker.opener.chars := by
  intro marker hmarker hkind
  cases given with
  | none =>
      obtain rfl := Except.ok.inj hgiven
      exact h marker (List.mem_of_mem_filter hmarker) hkind
  | some texts =>
      obtain ⟨given, -, hgiven⟩ :=
        mem_of_mapM_ok texts markers hgiven marker hmarker
      unfold Rules.docMarker Rules.markerKind? at hgiven
      split at hgiven
      · next kind hopens =>
        obtain rfl := Except.ok.inj hgiven
        obtain rfl : kind = .block := SpanKind.comment.inj hkind
        split at hopens
        · next hstarts => exact Delimiter.startsAt_iff.1 hstarts
        · split at hopens <;> cases hopens
      · cases hgiven

/-- The block markers of a scan start like block comments. -/
theorem Dialect.markersOpen (dialect : Dialect) {options : ScanOptions}
    {rules : Rules} (h : dialect.rules.withOptions options = .ok rules) :
    rules.MarkersOpen := by
  have hown : dialect.rules.MarkersOpen := by
    unfold Rules.MarkersOpen
    cases dialect <;> decide
  obtain ⟨marked, hmarked, rfl⟩ := withOptions_parts h
  have hopen : marked.MarkersOpen := by
    unfold Rules.withMarkers at hmarked
    split at hmarked
    · obtain rfl := Except.ok.inj hmarked
      exact hown
    · obtain ⟨outer, houter, hmarked⟩ := bind_eq_ok.1 hmarked
      obtain ⟨inner, hinner, hmarked⟩ := bind_eq_ok.1 hmarked
      obtain rfl := Except.ok.inj hmarked
      intro marker hmarker hkind
      rcases List.mem_append.1 hmarker with hmarker | hmarker
      · exact hown.markersFor houter marker hmarker hkind
      · exact hown.markersFor hinner marker hmarker hkind
  unfold Rules.withInnerComments
  split
  · exact hopen
  · exact fun marker hmarker => hopen marker (List.mem_of_mem_filter hmarker)

-- ====================================================== the comments

/-- The comment span ends in a closer that is not part of its opener. -/
def Rules.EndsClosed (rules : Rules) (span : Span) : Prop :=
  rules.blockCloser.chars <:+ span.chars.drop rules.blockOpener.length

/-- A block comment is one span, and its text is the span's content. -/
theorem block_comment_span {rules : Rules} {text : List Char}
    (hrules : rules.Delimited) (hmerges : rules.mergesLineComments = true)
    {c : Comment} (hc : c ∈ rules.commentsOf text) (hkind : c.kind = .block) :
    ∃ span ∈ rules.spans text, c.covered (rules.spans text) = [span]
      ∧ rules.MadeOf text [span] c
      ∧ c.text.toList = rules.ownContent text .block span := by
  obtain ⟨group, hgroup, hmerged⟩ := comment_group hmerges hc
  obtain ⟨hcovered, hmade⟩ := covered_group hrules hgroup hmerged
  match group with
  | [] => cases hmerged
  | first :: second :: more =>
      have hline := (hmade.several (Nat.succ_lt_succ (Nat.zero_lt_succ _))).1
      rw [hkind] at hline
      cases hline
  | [span] =>
      have hspan : span ∈ c.covered (rules.spans text) := by
        rw [hcovered]
        exact List.mem_singleton_self span
      have hblock := (hmade.alike span (List.mem_singleton_self span)).1
      rw [hkind] at hblock
      refine ⟨span, List.mem_of_mem_filter hspan, hcovered, hmade, ?_⟩
      rw [Rules.merged, hblock] at hmerged
      obtain rfl := Option.some.inj hmerged
      rw [String.toList_ofList]
      exact List.append_nil _

/-- A block comment is one span. If that is closed, the comment's text is what
stands between its opener and its closer. If it is open, the text is all that
stands behind the opener, unless comments nest and the last characters close one
inside: these are left out. -/
theorem block_comment_text {dialect : Dialect} {options : ScanOptions}
    {rules : Rules} (h : dialect.rules.withOptions options = .ok rules)
    (text : List Char) :
    ∀ c ∈ rules.commentsOf text, c.kind = .block →
      ∃ span ∈ rules.spans text, c.covered (rules.spans text) = [span]
        ∧ (rules.judge text .block span).style = c.style
        ∧ let opener :=
  (rules.opening .block (rules.judge text .block span)).chars
          let closer := rules.blockCloser.chars
          let whole := Text.slice text c.start c.stop
          (span.unclosed = none → whole = opener ++ c.text.toList ++ closer)
            ∧ (span.unclosed ≠ none →
              (whole = opener ++ c.text.toList ↔ ¬ rules.EndsClosed span)
                ∧ (rules.EndsClosed span →
                  rules.nestedBlocks = true
                    ∧ whole = opener ++ c.text.toList ++ closer)) := by
  intro c hc hkind
  have hopen := dialect.markersOpen h
  obtain ⟨markers, rfl⟩ := withOptions_eq h
  have hrules : ({ dialect.rules with markers } : Rules).Delimited := by
    obtain ⟨hline, hbreak, hopener, hcloser, hliteral⟩ := dialect.delimited
    exact ⟨hline, hbreak, hopener, hcloser, hliteral⟩
  have hmerges : ({ dialect.rules with markers } : Rules).mergesLineComments
      = true := by
    cases dialect <;> rfl
  generalize ({ dialect.rules with markers } : Rules) = rules at *
  obtain ⟨span, hspan, hcovered, hmade, htext⟩ :=
    block_comment_span hrules hmerges hc hkind
  obtain ⟨hblock, hstyle, -⟩ := hmade.alike span (List.mem_singleton_self span)
  rw [hkind] at hblock hstyle
  refine ⟨span, hspan, hcovered, hstyle, ?_⟩
  intro opener closer whole
  have hstart : span.start = c.start := Option.some.inj hmade.first
  have hstop : span.stop = c.stop := Option.some.inj hmade.last
  have hwhole : whole = span.chars := by
    rw [(hrules.spans_partition text).slices span hspan, hstart, hstop]
  have hopener : opener <+: span.chars := hrules.opening_prefix hspan hblock _
  obtain ⟨body, hbody, hclosed, hunclosed⟩ := hrules.block_comment hspan hblock
  have hends : rules.EndsClosed span ↔ rules.blockCloser.chars <:+ body := by
    rw [Rules.EndsClosed, hbody, Delimiter.length, List.drop_left]
  have hstrips : rules.Strips
      (rules.opening .block (rules.judge text .block span)) span.chars
      ↔ rules.blockCloser.chars <:+ body := by
    rw [Rules.judge, hbody]
    exact hopen.strips_iff body _
  have hstripped : rules.blockCloser.chars <:+ body →
      whole = opener ++ c.text.toList ++ closer := by
    intro hsuffix
    rw [hwhole, htext]
    exact (hstrips.2 hsuffix).contentOf hopener
  refine ⟨fun hnone => hstripped (hclosed hnone), fun hsome => ⟨⟨?_, ?_⟩, ?_⟩⟩
  · intro hkept hendsClosed
    have hboth := hstripped (hends.1 hendsClosed)
    rw [hkept, List.self_eq_append_right] at hboth
    exact hrules.closer hboth
  · intro hkept
    rw [hwhole, htext]
    exact Rules.contentOf_of_not_strips
      (fun hs => hkept (hends.2 (hstrips.1 hs))) hopener
  · intro hendsClosed
    exact ⟨hunclosed hsome (hends.1 hendsClosed),
      hstripped (hends.1 hendsClosed)⟩

/-- Kotlin with a block marker of its own. -/
def plusMarker : Rules :=
  { Dialect.kotlin.rules with
    markers := [{ opener := ⟨['/', '*', '+']⟩, kind := .comment .block }] }

/-- An open comment with a closed one inside, not at its end. -/
def openAroundClosed : List Char := "/*+ /* a */ b".toList

/-- An open comment with a closed one inside, not at its end, keeps its text. -/
theorem open_comment_keeps_text :
    Dialect.kotlin.rules.withOptions { outerMarkers := some ["/*+"] }
      = .ok plusMarker
      ∧ ∃ c ∈ plusMarker.commentsOf openAroundClosed, c.kind = .block
        ∧ ∃ span ∈ plusMarker.spans openAroundClosed, span.unclosed ≠ none
          ∧ Text.slice openAroundClosed c.start c.stop
            = (plusMarker.opening .block
              (plusMarker.judge openAroundClosed .block span)).chars
                ++ c.text.toList := by
  have hoptions : Dialect.kotlin.rules.withOptions
      { outerMarkers := some ["/*+"] }
      = .ok plusMarker := by
    with_unfolding_all rfl
  have hspans : plusMarker.spans openAroundClosed
      = [⟨.comment .block, 0, openAroundClosed, some .comment⟩] := by
    rw [plusMarker, Rules.spans_markers, Dialect.spans_eq]
    decide +kernel
  have hcomments : plusMarker.commentsOf openAroundClosed
      = [⟨" /* a */ b", .doc, 0, 13, .kotlin, .block, .outer, 1⟩] := by
    rw [Rules.commentsOf, hspans]
    decide +kernel
  have hc := hcomments ▸ List.mem_singleton_self _
  obtain ⟨span, hspan, -, -, -, hopen⟩ :=
    block_comment_text hoptions openAroundClosed _ hc rfl
  rw [hspans, List.mem_singleton] at hspan
  subst hspan
  have hsome : (some Unclosed.comment) ≠ none := Option.some_ne_none _
  refine ⟨hoptions, _, hc, rfl, _, hspans ▸ List.mem_singleton_self _,
    hsome, ?_⟩
  exact (hopen hsome).1.2 (by unfold Rules.EndsClosed; decide)

/-- An open comment that ends in the closer of one inside it. -/
def openToInnerCloser : List Char := "/* /* */".toList

/-- An open comment that ends in the closer of one inside it loses that. -/
theorem inner_closer_lost :
    (Dialect.kotlin.rules.spans openToInnerCloser).map
      (fun span => (span.kind, span.unclosed))
        = [(.comment .block, some .comment)]
      ∧ (Dialect.kotlin.rules.commentsOf openToInnerCloser).map
        (fun c => (c.style, c.text))
        = [(.plain, " /* ")]
      ∧ ∀ c ∈ Dialect.kotlin.rules.commentsOf openToInnerCloser,
        Text.slice openToInnerCloser c.start c.stop
          ≠ Dialect.kotlin.rules.blockOpener.chars ++ c.text.toList := by
  rw [Rules.commentsOf, Dialect.spans_eq]
  decide +kernel

end Marginalia
