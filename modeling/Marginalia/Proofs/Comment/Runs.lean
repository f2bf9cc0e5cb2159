/-
Comments and the spans they are made of.

The comments of a text partition its comment spans: read one after the other,
the spans that the comments cover are all comment spans in order. A comment of
several spans has doc lines of one placement only, each a line behind the one
before, and its text has the lines of its spans without their own markers. No
comment could have been longer (`comments_partition_spans`).
-/
import Marginalia.Proofs.Comment.Cut
import Mathlib.Data.List.Forall2
import Mathlib.Data.Option.Basic

namespace Marginalia

namespace Rules

variable {rules : Rules} {text : List Char} {span : Span} {kind : CommentKind}

/-- What takes the comments of a kind. -/
def alternativeOf : CommentKind → Alternative
  | .line => .line
  | .block => .block

/-- A comment span is what its delimiters take of the text. -/
theorem Delimited.comment_takes (hrules : rules.Delimited)
    (hspan : span ∈ rules.spans text) (hkind : span.kind = .comment kind) :
    rules.StartsAt text span.start (alternativeOf kind)
      ∧ rules.Takes (alternativeOf kind) span.chars (text.drop span.stop)
        span.unclosed := by
  cases hrules.spans_made text span hspan with
  | code hcode =>
      rw [hcode] at hkind
      cases hkind
  | lexeme a ha first takes =>
      rw [hkind] at ha
      rcases hrules.kind_cases first.applies with rfl | rfl | ⟨rule, literal,
        rfl, hliteral⟩
      · obtain rfl : kind = .line := SpanKind.comment.inj ha
        exact ⟨first.applies, takes⟩
      · obtain rfl : kind = .block := SpanKind.comment.inj ha
        exact ⟨first.applies, takes⟩
      · rw [Alternative.kind, hliteral] at ha
        cases ha

/-- A line comment is on one line, and opens like one. -/
theorem Delimited.line_comment (hrules : rules.Delimited)
    (hspan : span ∈ rules.spans text) (hkind : span.kind = .comment .line) :
    '\n' ∉ span.chars ∧ rules.lineComment.chars <+: span.chars := by
  obtain ⟨⟨tail, htail⟩, htakes⟩ := hrules.comment_takes hspan hkind
  rw [spans_drop hspan] at htail
  generalize text.drop span.stop = rest at htail htakes
  generalize span.unclosed = unclosed at htakes
  cases htakes with
  | line inside stop =>
      refine ⟨inside, ?_⟩
      rcases List.append_eq_append_iff.1 htail with ⟨more, hchars, -⟩ | ⟨more,
        hopener, hrest⟩
      · exact ⟨more, hchars.symm⟩
      · -- what the opener had beyond the line would start with a line feed
        cases more with
        | nil =>
            rw [List.append_nil] at hopener
            exact ⟨[], by rw [List.append_nil, hopener]⟩
        | cons c more =>
            rcases stop with rfl | hhead
            · cases hrest
            · rw [hrest] at hhead
              obtain rfl : c = '\n' := Option.some.inj hhead
              exact absurd (hopener ▸ by simp) hrules.lineBreak

theorem verdict_eq_doc {raw : List Char} {trailing : Bool} {marker : DocMarker}
    (h : rules.verdict kind raw trailing = .doc marker) :
    marker ∈ rules.markers ∧ marker.kind = .comment kind
      ∧ rules.opens marker raw = true := by
  unfold verdict at h
  split at h
  · cases h
  · split at h
    · next found hfind =>
      obtain rfl := Verdict.doc.inj h
      have hfound := List.find?_some hfind
      rw [Bool.and_eq_true, beq_iff_eq] at hfound
      exact ⟨List.mem_of_find?_eq_some hfind, hfound⟩
    · cases h

/-- A comment opens with its marker. -/
theorem Delimited.opening_prefix (hrules : rules.Delimited)
    (hspan : span ∈ rules.spans text) (hkind : span.kind = .comment kind)
    (trailing : Bool) :
    (rules.opening kind (rules.verdict kind span.chars trailing)).chars
      <+: span.chars := by
  have hbase : ∀ verdict : Verdict, verdict.marker? = none →
      (rules.opening kind verdict).chars <+: span.chars := by
    intro verdict hverdict
    unfold opening
    rw [hverdict]
    cases kind with
    | line => exact (hrules.line_comment hspan hkind).2
    | block =>
        obtain ⟨-, htakes⟩ := hrules.comment_takes hspan hkind
        generalize text.drop span.stop = rest at htakes
        generalize span.unclosed = unclosed at htakes
        generalize span.chars = chars at htakes ⊢
        cases htakes with
        | block => exact List.prefix_append _ _
        | openBlock => exact List.prefix_append _ _
  cases hverdict : rules.verdict kind span.chars trailing with
  | plain => exact hbase .plain rfl
  | ignored => exact hbase .ignored rfl
  | doc marker =>
      obtain ⟨-, -, hopens⟩ := verdict_eq_doc hverdict
      rw [opens, Bool.or_eq_true] at hopens
      rcases hopens with hempty | hopens
      · rw [Delimiter.isEmpty, List.isEmpty_iff] at hempty
        simp only [opening, Verdict.marker?, hempty]
        exact List.nil_prefix
      · rw [Bool.and_eq_true, Bool.and_eq_true] at hopens
        exact Delimiter.startsAt_iff.1 hopens.1.1

end Rules

-- ========================================================= partition

/-- Whether the span lies in the comment. -/
def Comment.holds (c : Comment) (span : Span) : Bool :=
  decide (c.start ≤ span.start) && decide (span.stop ≤ c.stop)

/-- The comment spans that lie in a comment. -/
def Comment.covered (spans : List Span) (c : Comment) : List Span :=
  spans.filter fun span => span.kind.isComment && c.holds span

theorem Comment.holds_iff {c : Comment} {span : Span} :
    c.holds span = true ↔ c.start ≤ span.start ∧ span.stop ≤ c.stop := by
  rw [holds, Bool.and_eq_true, decide_eq_true_iff, decide_eq_true_iff]

/-- What a comment is to the spans it is made of. It goes from the first to the
last; all are comments of its kind, style and placement; if they are several,
they are doc lines, each a line behind the one before; and the lines of a line
comment are the spans without their own openings. -/
structure Rules.MadeOf (rules : Rules) (text : List Char) (group : List Span)
    (c : Comment) : Prop where
  first : group.head?.map (·.start) = some c.start
  last : group.getLast?.map (·.stop) = some c.stop
  alike : ∀ span ∈ group, span.kind = .comment c.kind
    ∧ (rules.judge text c.kind span).style = c.style
    ∧ (rules.judge text c.kind span).placement = c.placement
  several : 1 < group.length → c.kind = .line ∧ c.style = .doc
  gaps : group.IsChain fun a b =>
    Text.isLineBreak (Text.slice text a.stop b.start) = true
  lines : c.kind = .line → List.Forall₂
    (fun span line =>
      span.chars = (rules.opening .line (rules.judge text .line span)).chars
        ++ line)
    group (Text.splitLines c.text.toList)

/-- The comments are doc lines of one placement, the second on the line behind
the first. -/
def Comment.Continues (text : List Char) (c d : Comment) : Prop :=
  (c.kind = .line ∧ c.style = .doc) ∧ (d.kind = .line ∧ d.style = .doc)
    ∧ c.placement = d.placement
    ∧ Text.isLineBreak (Text.slice text c.stop d.start) = true

section

variable {rules : Rules} {text : List Char}

/-- In a chain all are doc lines of one placement, unless it has one span
only. -/
theorem docLine_of_chain {first : Span} {more : List Span}
    (h : (first :: more).IsChain fun a b => rules.goesOn text a b = true) :
    ∀ span ∈ more, ∃ placement, rules.docLine text first = some placement
      ∧ rules.docLine text span = some placement := by
  induction more generalizing first with
  | nil =>
      intro span hspan
      cases hspan
  | cons second more ih =>
      intro span hspan
      obtain ⟨hgoes, hchain⟩ := List.isChain_cons_cons.1 h
      obtain ⟨placement, hfirst, hsecond, -⟩ := goesOn_iff.1 hgoes
      refine ⟨placement, hfirst, ?_⟩
      rcases List.mem_cons.1 hspan with rfl | hspan
      · exact hsecond
      · obtain ⟨placement', hsecond', hlast⟩ := ih hchain span hspan
        rw [← hsecond, hsecond', hlast]

/-- The spans of a chain are comments of one kind, style and placement. -/
theorem alike_of_chain {first : Span} {more : List Span} {kind : CommentKind}
    (hkind : first.kind = .comment kind)
    (hchain : (first :: more).IsChain fun a b => rules.goesOn text a b = true) :
    ∀ span ∈ first :: more, span.kind = .comment kind
      ∧ (rules.judge text kind span).style = (rules.judge text kind first).style
      ∧ (rules.judge text kind span).placement
        = (rules.judge text kind first).placement := by
  intro span hspan
  rcases List.mem_cons.1 hspan with rfl | hspan
  · exact ⟨hkind, rfl, rfl⟩
  · obtain ⟨placement, hfirst, hother⟩ := docLine_of_chain hchain span hspan
    obtain rfl := docLine_kind hkind hfirst
    obtain ⟨-, marker, hjudge, hplace⟩ := docLine_eq_some.1 hfirst
    obtain ⟨hline, marker', hjudge', hplace'⟩ := docLine_eq_some.1 hother
    rw [hjudge, hjudge']
    exact ⟨hline, rfl, hplace'.trans hplace.symm⟩

/-- The contents of line comments are the lines of the text they are joined
into. -/
theorem Rules.Delimited.contents_split (hrules : rules.Delimited) {first : Span}
    {more : List Span}
    (hspans : ∀ span ∈ first :: more, span ∈ rules.spans text)
    (hlines : ∀ span ∈ first :: more, span.kind = .comment .line) :
    List.Forall₂ (fun span line =>
        span.chars = (rules.opening .line (rules.judge text .line span)).chars
          ++ line)
      (first :: more)
      (Text.splitLines
        (Text.joinLines
          ((first :: more).map (rules.ownContent text .line)))) := by
  have hcontent : ∀ span, rules.ownContent text .line span
      = span.chars.drop
        (rules.opening .line (rules.judge text .line span)).length :=
    fun span => rfl
  have hnone : ∀ line ∈ (first :: more).map (rules.ownContent text .line),
      '\n' ∉ line := by
    intro line hline
    obtain ⟨span, hspan, rfl⟩ := List.mem_map.1 hline
    have hinside :=
      (hrules.line_comment (hspans span hspan) (hlines span hspan)).1
    exact fun hmem => hinside (List.mem_of_mem_drop hmem)
  rw [List.map_cons, Text.splitLines_joinLines hnone, ← List.map_cons,
    List.forall₂_map_right_iff, List.forall₂_same]
  intro span hspan
  rw [hcontent]
  exact (List.prefix_iff_eq_append.1
    (hrules.opening_prefix (hspans span hspan) (hlines span hspan) _)).symm

/-- What is made of a chain of comment spans. -/
theorem Rules.Delimited.madeOf (hrules : rules.Delimited) {group : List Span}
    {c : Comment} (hspans : ∀ span ∈ group, span ∈ rules.spans text)
    (hchain : group.IsChain fun a b => rules.goesOn text a b = true)
    (hmerged : rules.merged text group = some c) :
    rules.MadeOf text group c := by
  cases group with
  | nil => cases hmerged
  | cons first more =>
      rw [Rules.merged] at hmerged
      split at hmerged
      · next kind hkind =>
        obtain rfl := Option.some.inj hmerged
        have halike := alike_of_chain hkind hchain
        refine ⟨rfl, ?_, halike, fun hseveral => ?_, ?_, fun hline => ?_⟩
        · rw [List.getLast?_eq_some_getLast (List.cons_ne_nil first more)]
          rfl
        · obtain ⟨second, hsecond⟩ : ∃ second, second ∈ more :=
            List.exists_mem_of_length_pos (Nat.lt_of_succ_lt_succ hseveral)
          obtain ⟨placement, hfirst, -⟩ :=
            docLine_of_chain hchain second hsecond
          obtain rfl := docLine_kind hkind hfirst
          obtain ⟨-, marker, hjudge, -⟩ := docLine_eq_some.1 hfirst
          exact ⟨rfl, by rw [hjudge]; rfl⟩
        · refine hchain.imp fun a b hgoes => ?_
          obtain ⟨placement, -, -, hgap⟩ := goesOn_iff.1 hgoes
          exact hgap
        · obtain rfl : kind = .line := hline
          rw [String.toList_ofList]
          exact hrules.contents_split hspans fun span hspan =>
            (halike span hspan).1
      · cases hmerged

/-- Of spans that lie one behind the other, those between two of them. -/
theorem Comment.covered_eq {front group back : List Span} {c : Comment}
    (hpairs : (front ++ (group ++ back)).Pairwise fun a b => a.stop ≤ b.start)
    (hlength : ∀ span ∈ front ++ (group ++ back), span.start < span.stop)
    (hfirst : group.head?.map (·.start) = some c.start)
    (hlast : group.getLast?.map (·.stop) = some c.stop) :
    (front ++ (group ++ back)).filter c.holds = group := by
  obtain ⟨first, hhead, hstart⟩ := Option.map_eq_some_iff.1 hfirst
  obtain ⟨last, hend, hstop⟩ := Option.map_eq_some_iff.1 hlast
  obtain ⟨-, hpairs, hfront⟩ := List.pairwise_append.1 hpairs
  obtain ⟨hgroup, -, hback⟩ := List.pairwise_append.1 hpairs
  have hfirstMem := List.mem_of_mem_head? hhead
  have hlastMem := List.mem_of_mem_getLast? hend
  have hbefore : front.filter c.holds = [] := by
    refine List.filter_eq_nil_iff.2 fun span hspan => ?_
    have hle := hfront span hspan first (List.mem_append_left _ hfirstMem)
    have hlt := hlength span (List.mem_append_left _ hspan)
    rw [Comment.holds_iff]
    omega
  have hbehind : back.filter c.holds = [] := by
    refine List.filter_eq_nil_iff.2 fun span hspan => ?_
    have hle := hback last hlastMem span hspan
    have hlt :=
      hlength span (List.mem_append_right _ (List.mem_append_right _ hspan))
    rw [Comment.holds_iff]
    omega
  have hinside : group.filter c.holds = group := by
    refine List.filter_eq_self.2 fun span hspan => ?_
    have hlow : first.start ≤ span.start := by
      obtain ⟨tail, rfl⟩ := List.head?_eq_some_iff.1 hhead
      rcases List.mem_cons.1 hspan with rfl | hspan
      · exact Nat.le_refl _
      · have hle := (List.pairwise_cons.1 hgroup).1 span hspan
        have hlt :=
          hlength first
            (List.mem_append_right _ (List.mem_append_left _ hfirstMem))
        omega
    have hhigh : span.stop ≤ last.stop := by
      obtain ⟨init, rfl⟩ := List.getLast?_eq_some_iff.1 hend
      rcases List.mem_append.1 hspan with hspan | hspan
      · have hle :=
          (List.pairwise_append.1 hgroup).2.2 span hspan last
            (List.mem_singleton_self _)
        have hlt :=
          hlength last
            (List.mem_append_right _ (List.mem_append_left _ hlastMem))
        omega
      · rw [List.mem_singleton.1 hspan]
    rw [Comment.holds_iff]
    omega
  rw [List.filter_append, List.filter_append, hbefore, hinside, hbehind,
    List.append_nil, List.nil_append]

/-- A comment covers the spans it is made of. -/
theorem covered_group (hrules : rules.Delimited) {group : List Span}
    {c : Comment} (hgroup : group ∈ rules.groups text)
    (hmerged : rules.merged text group = some c) :
    c.covered (rules.spans text) = group ∧ rules.MadeOf text group c := by
  have htiles := spans_tiles rules text
  obtain ⟨front, back, hcut⟩ := List.append_of_mem hgroup
  have hflat : (rules.spans text).filter (·.kind.isComment)
      = front.flatten ++ (group ++ back.flatten) := by
    rw [← List.flatten_cons, ← List.flatten_append, ← hcut, Rules.groups,
      List.flatten_splitBy]
  have hmem : ∀ span ∈ front.flatten ++ (group ++ back.flatten),
      span ∈ rules.spans text := by
    intro span hspan
    rw [← hflat] at hspan
    exact List.mem_of_mem_filter hspan
  have hmade := hrules.madeOf
    (fun span hspan =>
      hmem span (List.mem_append_right _ (List.mem_append_left _ hspan)))
    (List.isChain_of_mem_splitBy hgroup) hmerged
  refine ⟨?_, hmade⟩
  have hpairs := htiles.pairwise.filter (·.kind.isComment)
  rw [hflat] at hpairs
  have hcovered :=
    Comment.covered_eq hpairs
      (fun span hspan => (htiles.mem (hmem span hspan)).2.1)
    hmade.first hmade.last
  rw [← hflat, List.filter_filter] at hcovered
  rw [← hcovered, Comment.covered]
  exact List.filter_congr fun span _ => Bool.and_comm _ _

/-- The comments cover the groups, one after the other. -/
theorem covered_groups (hrules : rules.Delimited)
    (hmerges : rules.mergesLineComments = true) :
    (rules.commentsOf text).map (·.covered (rules.spans text))
      = rules.groups text := by
  refine List.map_injective_iff.2 (Option.some_injective _) ?_
  calc ((rules.commentsOf text).map (·.covered (rules.spans text))).map some
      = ((rules.commentsOf text).map some).map
        (Option.map (·.covered (rules.spans text))) := by
        rw [List.map_map, List.map_map]
        rfl
    _ = (rules.groups text).map
          fun group => (rules.merged text group).map
            (·.covered (rules.spans text)) := by
        rw [comments_cut hmerges, List.map_map]
        rfl
    _ = (rules.groups text).map some := by
        refine List.map_congr_left fun group hgroup => ?_
        obtain ⟨c, -, hmerged⟩ := group_comment hmerges hgroup
        rw [hmerged, Option.map_some, (covered_group hrules hgroup hmerged).1]

theorem Rules.MadeOf.docLine {group : List Span} {c : Comment}
    (h : rules.MadeOf text group c) (hkind : c.kind = .line)
    (hstyle : c.style = .doc) {span : Span} (hspan : span ∈ group) :
    rules.docLine text span = some c.placement := by
  obtain ⟨hline, hjudge, hplace⟩ := h.alike span hspan
  rw [hkind] at hline hjudge hplace
  cases hverdict : rules.judge text .line span with
  | doc marker =>
      rw [hverdict] at hplace
      exact docLine_eq_some.2 ⟨hline, marker, hverdict, hplace⟩
  | plain | ignored =>
      rw [hverdict, hstyle] at hjudge
      cases hjudge

/-- Of two comments whose spans do not go on with each other, the second does
not continue the first. -/
theorem Rules.MadeOf.not_continues {front back : List Span} {c d : Comment}
    (hfront : rules.MadeOf text front c) (hback : rules.MadeOf text back d)
    (h : ∃ hne hne', rules.goesOn text (front.getLast hne) (back.head hne')
      = false) :
    ¬ c.Continues text d := by
  rintro ⟨⟨hckind, hcstyle⟩, ⟨hdkind, hdstyle⟩, hplace, hgap⟩
  obtain ⟨hne, hne', hstops⟩ := h
  have hstop : (front.getLast hne).stop = c.stop := by
    have hlast := hfront.last
    rw [List.getLast?_eq_some_getLast hne] at hlast
    exact Option.some.inj hlast
  have hstart : (back.head hne').start = d.start := by
    have hfirst := hback.first
    rw [List.head?_eq_some_head hne'] at hfirst
    exact Option.some.inj hfirst
  have hgoes : rules.goesOn text (front.getLast hne) (back.head hne')
      = true := by
    refine goesOn_iff.2 ⟨c.placement,
      hfront.docLine hckind hcstyle (List.getLast_mem hne), ?_, ?_⟩
    · rw [hplace]
      exact hback.docLine hdkind hdstyle (List.head_mem hne')
    · rw [hstop, hstart, hgap]
  rw [hgoes] at hstops
  cases hstops

/-- No comment continues the one before it. -/
theorem comments_maximal (hrules : rules.Delimited)
    (hmerges : rules.mergesLineComments = true) :
    (rules.commentsOf text).IsChain fun c d => ¬ c.Continues text d := by
  have hchain : ((rules.commentsOf text).map some).IsChain
      fun x y => ∀ c d, x = some c → y = some d → ¬ c.Continues text d := by
    rw [comments_cut hmerges, List.isChain_map]
    refine List.IsChain.imp_of_mem_imp
      (fun front back hfront hback hstops c d hc hd => ?_)
      (List.isChain_getLast_head_splitBy _ _)
    exact (covered_group hrules hfront hc).2.not_continues
      (covered_group hrules hback hd).2 hstops
  exact ((List.isChain_map some).1 hchain).imp fun c d h => h c d rfl rfl

end

/-- The comments of a text, in order, cover its comment spans, in order and each
once; each comment is made of the spans it covers; and doc lines that belong
together are in one comment. -/
theorem comments_partition_spans (dialect : Dialect) (text : List Char) :
    let rules := dialect.rules
    let spans := rules.spans text
    let comments := rules.commentsOf text
    comments.flatMap (·.covered spans) = spans.filter (·.kind.isComment)
      ∧ (∀ c ∈ comments, rules.MadeOf text (c.covered spans) c)
      ∧ comments.IsChain fun c d => ¬ c.Continues text d := by
  intro rules spans comments
  have hrules : rules.Delimited := dialect.delimited
  have hmerges : rules.mergesLineComments = true := by
    cases dialect <;> rfl
  refine ⟨?_, fun c hc => ?_, comments_maximal hrules hmerges⟩
  · rw [List.flatMap_def, covered_groups hrules hmerges, Rules.groups,
      List.flatten_splitBy]
  · obtain ⟨group, hgroup, hmerged⟩ := comment_group hmerges hc
    obtain ⟨hcovered, hmade⟩ := covered_group hrules hgroup hmerged
    rw [hcovered]
    exact hmade

end Marginalia
