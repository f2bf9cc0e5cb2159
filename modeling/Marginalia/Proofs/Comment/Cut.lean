/-
Comments as a cut of the comment spans.

Two comment spans belong together if both are doc lines of one placement and
nothing lies between them but white space with one line feed. The reading
keeps a run of such spans open and closes it from several places; what comes
of it is one cut of all comment spans, between each two that do not belong
together (`comments_cut`). While a run is open, `OpenRun` says what was
gathered: the chain of its spans, their contents, and the gap behind the last.
-/
import Marginalia.Proofs.Association.Stream
import Marginalia.Proofs.Comment.Demoted
import Marginalia.Proofs.Comment.Trailing
import Marginalia.Proofs.Span.Partition
import Mathlib.Data.List.SplitBy

namespace Marginalia

-- ========================================================== verdicts

/-- What a comment with the verdict opens with: its doc marker, or what any
comment of its kind does. -/
def Rules.opening (rules : Rules) (kind : CommentKind) (verdict : Verdict) :
    Delimiter :=
  match verdict.marker?, kind with
  | some marker, _ => marker.opener
  | none, .line => rules.lineComment
  | none, .block => rules.blockOpener

/-- The placement of a comment with the verdict. -/
def Verdict.placement (verdict : Verdict) : Placement :=
  (verdict.marker?.map (·.placement)).getD .outer

/-- The verdict on a comment span among the spans of its text. -/
def Rules.judge (rules : Rules) (text : List Char) (kind : CommentKind)
    (span : Span) : Verdict :=
  rules.verdict kind span.chars
    (trailsCode (.ofText text) (rules.spans text) span)

/-- The content of a comment span: its characters without its own markers. -/
def Rules.ownContent (rules : Rules) (text : List Char) (kind : CommentKind)
    (span : Span) : List Char :=
  rules.contentOf kind (rules.opening kind (rules.judge text kind span)).length
    span.chars

/-- The placement of a span that is a doc line. -/
def Rules.docLine (rules : Rules) (text : List Char) (span : Span) :
    Option Placement :=
  if span.kind = .comment .line then
    (rules.judge text .line span).marker?.map (·.placement)
  else none

-- =========================================================== the cut

/-- White space with one line feed. -/
def Text.isLineBreak (gap : List Char) : Bool :=
  gap.count '\n' == 1 && gap.all Text.isBlank

/-- Whether the second of two comment spans goes on with the first. -/
def Rules.goesOn (rules : Rules) (text : List Char) (a b : Span) : Bool :=
  (rules.docLine text a).isSome && rules.docLine text a == rules.docLine text b
    && Text.isLineBreak (Text.slice text a.stop b.start)

/-- The comment that a group of comment spans makes: it opens like the first,
ends with the last and has the contents of all. -/
def Rules.merged (rules : Rules) (text : List Char) : List Span → Option Comment
  | [] => none
  | first :: more =>
    match first.kind with
    | .comment kind => some {
        text :=
          String.ofList
            (Text.joinLines ((first :: more).map (rules.ownContent text kind)))
        style := (rules.judge text kind first).style
        start := first.start
        stop := ((first :: more).getLast (List.cons_ne_nil first more)).stop
        dialect := rules.dialect
        kind
        placement := (rules.judge text kind first).placement
        line := (Text.Lines.ofText text).lineOf first.start }
    | _ => none

/-- The comments that comment spans make, cut where one does not go on with the
one before. -/
def Rules.cut (rules : Rules) (text : List Char) (spans : List Span) :
    List (Option Comment) :=
  (spans.splitBy (rules.goesOn text)).map (rules.merged text)

section

variable {rules : Rules} {text : List Char}

/-- The comment of a span by itself. -/
theorem merged_single {span : Span} {kind : CommentKind}
    (h : span.kind = .comment kind) :
    rules.merged text [span]
      = some (rules.comment span kind (rules.judge text kind span)
      ((Text.Lines.ofText text).lineOf span.start)) := by
  have hjoin : ∀ line, Text.joinLines [line] = line := List.append_nil
  simp only [Rules.merged, h, List.map_cons, List.map_nil, hjoin,
    Rules.ownContent, Rules.comment]
  cases rules.judge text kind span <;> cases kind <;> rfl

theorem goesOn_iff {a b : Span} : rules.goesOn text a b = true ↔
    ∃ placement, rules.docLine text a = some placement
      ∧ rules.docLine text b = some placement
      ∧ Text.isLineBreak (Text.slice text a.stop b.start) = true := by
  rw [Rules.goesOn, Bool.and_eq_true, Bool.and_eq_true, beq_iff_eq,
    Option.isSome_iff_exists]
  constructor
  · rintro ⟨⟨⟨placement, ha⟩, hsame⟩, hgap⟩
    exact ⟨placement, ha, hsame ▸ ha, hgap⟩
  · rintro ⟨placement, ha, hb, hgap⟩
    exact ⟨⟨⟨placement, ha⟩, ha.trans hb.symm⟩, hgap⟩

/-- Parts that do not go on with each other are cut by themselves. -/
theorem cut_append {front back : List Span}
    (h : ∀ a ∈ front.getLast?, ∀ b ∈ back.head?,
      rules.goesOn text a b = false) :
    rules.cut text (front ++ back)
      = rules.cut text front ++ rules.cut text back := by
  rw [Rules.cut, List.splitBy_append h, List.map_append]
  rfl

theorem cut_single (span : Span) :
    rules.cut text [span] = [rules.merged text [span]] := rfl

/-- A span that is no doc line is a comment by itself. -/
theorem cut_alone {span : Span} (h : rules.docLine text span = none)
    (group rest : List Span) :
    rules.cut text (group ++ span :: rest)
      = rules.cut text group ++ rules.merged text [span]
        :: rules.cut text rest := by
  have hfront : ∀ a, rules.goesOn text a span = false := by
    intro a
    refine Bool.eq_false_iff.2 fun hgoes => ?_
    obtain ⟨placement, -, hspan, -⟩ := goesOn_iff.1 hgoes
    rw [h] at hspan
    cases hspan
  have hback : ∀ b, rules.goesOn text span b = false := by
    intro b
    refine Bool.eq_false_iff.2 fun hgoes => ?_
    obtain ⟨placement, hspan, -, -⟩ := goesOn_iff.1 hgoes
    rw [h] at hspan
    cases hspan
  have hhead : ∀ b ∈ (span :: rest).head?,
      b = span := fun b hb => (Option.some.inj hb).symm
  rw [cut_append fun a _ b hb => hhead b hb ▸ hfront a,
    show span :: rest = [span] ++ rest from rfl,
    cut_append fun a ha b _ => Option.some.inj ha ▸ hback b, cut_single,
    List.singleton_append]

-- ====================================================== the open run

/-- The run that is open after the text was read up to the offset, with the
spans it is made of. -/
structure OpenRun (rules : Rules) (text : List Char) (offset : Nat)
    (group : List Span) (run : CommentRun) : Prop where
  chain : group.IsChain fun a b => rules.goesOn text a b = true
  first : ∃ span, group.head? = some span
    ∧ rules.docLine text span = some run.placement
    ∧ run.start = span.start
    ∧ run.line = (Text.Lines.ofText text).lineOf span.start
  last : ∃ span, group.getLast? = some span
    ∧ rules.docLine text span = some run.placement
    ∧ run.stop = span.stop
  contents : run.contents.reverse = group.map (rules.ownContent text .line)
  behind : run.stop ≤ offset
  gap : Text.slice text run.stop offset = run.gap

/-- The spans of the run that is open, if there is one. -/
def Pending (rules : Rules) (text : List Char) (offset : Nat)
    (group : List Span) : Option CommentRun → Prop
  | none => group = []
  | some run => OpenRun rules text offset group run

theorem docLine_eq_some {span : Span} {placement : Placement} :
    rules.docLine text span = some placement ↔ span.kind = .comment .line
      ∧ ∃ marker, rules.judge text .line span = .doc marker
      ∧ marker.placement = placement := by
  unfold Rules.docLine
  split
  · next hkind =>
    rw [Option.map_eq_some_iff]
    refine ⟨fun ⟨marker, hmarker, hplace⟩ => ⟨hkind, marker, ?_, hplace⟩,
      fun ⟨_, marker, hjudge, hplace⟩ => ⟨marker, ?_, hplace⟩⟩
    · cases hjudge : rules.judge text .line span <;> rw [hjudge] at hmarker
        <;> cases hmarker
      rfl
    · rw [hjudge]
      rfl
  · next hkind => exact ⟨fun h => (nomatch h), fun h => absurd h.1 hkind⟩

theorem docLine_kind {span : Span} {kind : CommentKind} {placement : Placement}
    (hkind : span.kind = .comment kind)
    (h : rules.docLine text span = some placement) :
    kind = .line := by
  have hline := (docLine_eq_some.1 h).1
  rw [hkind] at hline
  exact SpanKind.comment.inj hline

namespace OpenRun

variable {offset : Nat} {group : List Span} {run : CommentRun}

theorem merged (h : OpenRun rules text offset group run) :
    rules.merged text group = some (run.comment rules) := by
  obtain ⟨first, hfirst, hdoc, hstart, hline⟩ := h.first
  obtain ⟨last, hlast, -, hstop⟩ := h.last
  obtain ⟨hkind, marker, hjudge, hplace⟩ := docLine_eq_some.1 hdoc
  cases group with
  | nil => cases hfirst
  | cons span more =>
      obtain rfl : span = first := Option.some.inj hfirst
      have hend : (span :: more).getLast (List.cons_ne_nil span more) = last :=
        List.getLast_of_mem_getLast? hlast
      simp only [Rules.merged, hkind, hjudge, hend, CommentRun.comment,
        h.contents, hstart, hstop, hline, ← hplace]
      rfl

/-- White space behind the run. -/
theorem skip (h : OpenRun rules text offset group run) {blank rest : List Char}
    (hchars : text.drop offset = blank ++ rest) :
    OpenRun rules text (offset + blank.length) group (run.skip blank) where
  chain := h.chain
  first := h.first
  last := h.last
  contents := h.contents
  behind := Nat.le_trans h.behind (Nat.le_add_right _ _)
  gap := by
    rw [CommentRun.skip, ← h.gap]
    exact slice_extend h.behind hchars

end OpenRun

theorem ownContent_line {span : Span} {marker : DocMarker}
    (h : rules.judge text .line span = .doc marker) :
    rules.ownContent text .line span
      = span.chars.drop marker.opener.length := by
  rw [Rules.ownContent, h]
  rfl

/-- A run of one line. -/
theorem OpenRun.single {span : Span} {marker : DocMarker}
    (hkind : span.kind = .comment .line)
    (hjudge : rules.judge text .line span = .doc marker) :
    OpenRun rules text span.stop [span]
      (.single span marker ((Text.Lines.ofText text).lineOf span.start)) := by
  have hdoc := docLine_eq_some.2 ⟨hkind, marker, hjudge, rfl⟩
  refine ⟨List.isChain_singleton span, ⟨span, rfl, hdoc, rfl, rfl⟩,
    ⟨span, rfl, hdoc, rfl⟩, ?_, Nat.le_refl _, slice_self text _⟩
  rw [List.map_singleton, ownContent_line hjudge]
  rfl

/-- The run goes on with one more line. -/
theorem OpenRun.push {group : List Span} {run : CommentRun} {span : Span}
    {marker : DocMarker} (h : OpenRun rules text span.start group run)
    (hkind : span.kind = .comment .line)
    (hjudge : rules.judge text .line span = .doc marker)
    (hplace : run.placement = marker.placement)
    (hgap : Text.isLineBreak run.gap = true) :
    OpenRun rules text span.stop (group ++ [span]) (run.push span marker) := by
  have hdoc : rules.docLine text span = some run.placement :=
    docLine_eq_some.2 ⟨hkind, marker, hjudge, hplace.symm⟩
  obtain ⟨first, hfirst, hstart⟩ := h.first
  obtain ⟨last, hlast, hlastDoc, hstop⟩ := h.last
  refine ⟨?_, ⟨first, ?_, hstart⟩, ⟨span, List.getLast?_concat, hdoc, rfl⟩, ?_,
    Nat.le_refl _, slice_self text _⟩
  · refine List.isChain_append.2 ⟨h.chain, List.isChain_singleton span,
      fun a ha b hb => ?_⟩
    obtain rfl : last = a := Option.some.inj (hlast.symm.trans ha)
    obtain rfl : span = b := Option.some.inj hb
    refine goesOn_iff.2 ⟨run.placement, hlastDoc, hdoc, ?_⟩
    rw [← hstop, h.gap, hgap]
  · rw [List.head?_append, hfirst]
    rfl
  · rw [List.map_append, List.map_singleton, ownContent_line hjudge,
      ← h.contents]
    exact List.reverse_cons

namespace Pending

variable {offset : Nat} {group : List Span} {run? : Option CommentRun}

/-- What is read of the open run by itself. -/
theorem finish (h : Pending rules text offset group run?) :
    rules.cut text group = (rules.finishRun run?).map some := by
  cases run? with
  | none =>
      have hgroup : group = [] := h
      rw [hgroup]
      rfl
  | some run =>
      obtain ⟨first, hfirst, -⟩ := OpenRun.first h
      have hne : group ≠ [] := by
        rintro rfl
        cases hfirst
      rw [Rules.cut, List.splitBy_of_isChain hne (OpenRun.chain h),
        List.map_singleton, OpenRun.merged h]
      rfl

/-- A span that does not go on with the open run. -/
theorem stops (h : Pending rules text offset group run?) {b : Span}
    (hb : ∀ run ∈ run?, rules.docLine text b = some run.placement →
      Text.isLineBreak (Text.slice text run.stop b.start) = false) :
    ∀ a ∈ group.getLast?, rules.goesOn text a b = false := by
  intro a ha
  cases run? with
  | none =>
      have hgroup : group = [] := h
      rw [hgroup] at ha
      cases ha
  | some run =>
      obtain ⟨last, hlast, hdoc, hstop⟩ := OpenRun.last h
      obtain rfl : last = a := Option.some.inj (hlast.symm.trans ha)
      refine Bool.eq_false_iff.2 fun hgoes => ?_
      obtain ⟨placement, ha', hb', hgap⟩ := goesOn_iff.1 hgoes
      rw [hdoc] at ha'
      rw [← hstop, hb run rfl (hb'.trans ha'.symm)] at hgap
      cases hgap

end Pending

/-- Whether a span is a doc line that may join a run. -/
theorem docLine_eq {span : Span} {kind : CommentKind}
    (hmerges : rules.mergesLineComments = true)
    (hkind : span.kind = .comment kind) :
    rules.docLine text span
      = (rules.docLine? kind (rules.judge text kind span)).map
        (·.placement) := by
  unfold Rules.docLine Rules.docLine?
  rw [hmerges, hkind]
  cases kind with
  | line => cases rules.judge text .line span <;> rfl
  | block => cases rules.judge text .block span <;> rfl

-- ====================================================== span by span

/-- A comment among the spans. -/
theorem readComment_cut (hmerges : rules.mergesLineComments = true)
    {state : CommentState} {group : List Span} {span : Span}
    {kind : CommentKind} (hkind : span.kind = .comment kind)
    (hpending : Pending rules text span.start group state.run)
    (htrails : ((Text.Lines.ofText text).lineOf span.start == state.codeLine)
      = trailsCode (.ofText text) (rules.spans text) span) :
    ∃ group', Pending rules text span.stop group'
        (rules.readComment (.ofText text) state span kind).2.run
      ∧ ∀ rest, rules.cut text (group ++ span :: rest)
        = (rules.readComment (.ofText text) state span kind).1.map some
          ++ rules.cut text (group' ++ rest) := by
  have hread : rules.readComment (.ofText text) state span kind
      = rules.readVerdict ((Text.Lines.ofText text).lineOf span.start) state
        span kind (rules.judge text kind span) := by
    rw [Rules.judge, ← htrails]
    rfl
  have hline : rules.docLine text span
      = (rules.docLine? kind (rules.judge text kind span)).map (·.placement) :=
    docLine_eq hmerges hkind
  rw [hread]
  unfold Rules.readVerdict
  cases hdoc : rules.docLine? kind (rules.judge text kind span) with
  | none =>
      rw [hdoc] at hline
      refine ⟨[], rfl, fun rest => ?_⟩
      rw [cut_alone hline, hpending.finish, merged_single hkind,
        List.map_append, List.append_assoc]
      rfl
  | some marker =>
      rw [hdoc] at hline
      have hjudge := docLine?_eq_some hdoc
      obtain rfl := docLine_kind hkind hline
      simp only
      split
      · -- the line joins the run
        next hadmits =>
        obtain ⟨run, hrun, hjoins⟩ := (Option.any_eq_true _ _).1 hadmits
        rw [hrun] at hpending
        simp only [CommentRun.admits, Bool.and_eq_true, beq_iff_eq] at hjoins
        obtain ⟨⟨hplace, hcount⟩, hblank⟩ := hjoins
        have hgap : Text.isLineBreak run.gap = true := by
          rw [Text.isLineBreak, hblank, hcount]
          rfl
        refine ⟨group ++ [span], ?_, fun rest => ?_⟩
        · rw [hrun]
          exact OpenRun.push hpending hkind hjudge hplace hgap
        · rw [List.append_assoc]
          rfl
      · -- the line starts a run of its own
        next hrefused =>
        refine ⟨[span], .single hkind hjudge, fun rest => ?_⟩
        have hstops : ∀ a ∈ group.getLast?,
            rules.goesOn text a span = false := by
          refine hpending.stops fun run hrun hplace => ?_
          rw [hrun] at hpending hrefused
          rw [OpenRun.gap hpending]
          refine Bool.eq_false_iff.2 fun hgap => hrefused ?_
          rw [hline] at hplace
          rw [Text.isLineBreak, Bool.and_eq_true] at hgap
          simp [CommentRun.admits, Option.some.inj hplace, hgap.1, hgap.2]
        rw [cut_append fun a ha b hb => Option.some.inj hb ▸ hstops a ha,
          hpending.finish]
        rfl

/-- A visible character between two places is no line break. -/
theorem Text.VisibleAt.not_isLineBreak {offset start stop : Nat}
    (h : Text.VisibleAt text offset) (hstart : start ≤ offset)
    (hstop : offset < stop) :
    Text.isLineBreak (Text.slice text start stop) = false := by
  obtain ⟨c, hc, hvisible⟩ := h
  refine Bool.eq_false_iff.2 fun hbreak => ?_
  rw [Text.isLineBreak, Bool.and_eq_true, List.all_eq_true] at hbreak
  have hmem : c ∈ Text.slice text start stop := by
    refine List.mem_of_getElem? (i := offset - start) ?_
    rw [Text.slice, List.getElem?_take_of_lt (by omega), List.getElem?_drop,
      show start + (offset - start) = offset by omega, hc]
  rw [hbreak.2 c hmem] at hvisible
  cases hvisible

/-- Code, literals and white space among the spans: only code ends the open
run. -/
theorem readCode_cut {state : CommentState} {group : List Span} {span : Span}
    (hspan : span ∈ rules.spans text)
    (hpending : Pending rules text span.start group state.run) :
    ∃ group', Pending rules text span.stop group'
      (rules.readCode (.ofText text) state span).2.run
      ∧ ∀ rest, (∀ other ∈ rest, span.stop ≤ other.start) →
      rules.cut text (group ++ rest)
        = (rules.readCode (.ofText text) state span).1.map some
          ++ rules.cut text (group' ++ rest) := by
  unfold Rules.readCode
  simp only
  split
  · refine ⟨group, ?_, fun rest _ => rfl⟩
    cases hrun : state.run with
    | none =>
        rw [hrun] at hpending
        exact hpending
    | some run =>
        rw [hrun] at hpending
        exact OpenRun.skip hpending (spans_drop hspan)
  · next hvisible =>
    refine ⟨[], rfl, fun rest hrest => ?_⟩
    rw [← hpending.finish]
    refine cut_append fun a ha b hb => ?_
    refine hpending.stops (fun run hrun _ => ?_) a ha
    rw [hrun] at hpending
    obtain ⟨c, hc, hshown⟩ :=
      Text.visibleAt_trimRight fun hnil => hvisible (List.isEmpty_iff.2 hnil)
    have hlt := (List.getElem?_eq_some_iff.1 hc).1
    have hshown : Text.VisibleAt text
        (span.start + ((Text.trimRight span.chars).length - 1)) := by
      refine ⟨c, ?_, hshown⟩
      rw [← List.getElem?_drop, spans_drop hspan,
        List.getElem?_append_left hlt, hc]
    have hbehind := hrest b (List.mem_of_mem_head? hb)
    have hfront := OpenRun.behind hpending
    rw [Span.stop] at hbehind
    exact hshown.not_isLineBreak (by omega) (by omega)

/-- One span: what it finishes is cut off the comment spans so far. -/
theorem readSpan_cut (hmerges : rules.mergesLineComments = true)
    {state : CommentState} {group : List Span} {span : Span}
    (hspan : span ∈ rules.spans text)
    (hpending : Pending rules text span.start group state.run)
    (htrails : ((Text.Lines.ofText text).lineOf span.start == state.codeLine)
      = trailsCode (.ofText text) (rules.spans text) span) :
    ∃ group', Pending rules text span.stop group'
      (rules.readSpan (.ofText text) state span).2.run
      ∧ ∀ rest, (∀ other ∈ rest, span.stop ≤ other.start) →
        rules.cut text (group ++ (span :: rest).filter (·.kind.isComment))
          = (rules.readSpan (.ofText text) state span).1.map some
            ++ rules.cut text (group' ++ rest.filter (·.kind.isComment)) := by
  cases hkind : span.kind.isComment with
  | true =>
      obtain ⟨kind, hcomment⟩ := SpanKind.isComment_iff.1 hkind
      rw [readSpan_comment _ _ _ hcomment]
      obtain ⟨group', hpending', hcut⟩ :=
        readComment_cut hmerges hcomment hpending htrails
      refine ⟨group', hpending', fun rest _ => ?_⟩
      rw [List.filter_cons, if_pos hkind, hcut]
  | false =>
      rw [readSpan_code _ _ _ (SpanKind.isComment_eq_false.1 hkind)]
      obtain ⟨group', hpending', hcut⟩ := readCode_cut hspan hpending
      refine ⟨group', hpending', fun rest hrest => ?_⟩
      rw [List.filter_cons, if_neg (Bool.eq_false_iff.1 hkind)]
      exact hcut _ fun other hother =>
        hrest other (List.mem_of_mem_filter hother)

/-- Span after span: the comments are cut off the comment spans, those of the
open run in front. -/
theorem commentsFrom_cut (hmerges : rules.mergesLineComments = true)
    (rest : List Span) :
    ∀ (front : List Span) (state : CommentState) (group : List Span),
      rules.spans text = front ++ rest →
      SeenCode (.ofText text) front state.codeLine →
      Pending rules text (tilesEnd 0 front) group state.run →
      (rules.commentsFrom (.ofText text) state.codeLine state.run rest).map some
        = rules.cut text (group ++ rest.filter (·.kind.isComment)) := by
  induction rest with
  | nil =>
      intro front state group _ _ hpending
      rw [List.filter_nil, List.append_nil, hpending.finish, Rules.commentsFrom]
  | cons span rest ih =>
      intro front state group hspans hseen hpending
      have htiles := spans_tiles rules text
      rw [hspans] at htiles
      obtain ⟨hfront, hback⟩ := htiles.of_append
      have hstart : span.start = tilesEnd 0 front := hback.1
      have hread : Tiles 0 (front ++ [span]) :=
        hfront.append ⟨hback.1, hback.2.1, trivial⟩
      have htrails := hseen.trails (Text.Lines.lineOf_pos text) htiles
      rw [← hspans] at htrails
      rw [← hstart] at hpending
      obtain ⟨group', hpending', hcut⟩ :=
        readSpan_cut hmerges
          (hspans ▸ List.mem_append_right front List.mem_cons_self) hpending
          htrails
      rw [commentsFrom_cons, List.map_append,
        hcut rest fun other hother => (hback.2.2.mem hother).1]
      refine congrArg _
        (ih (front ++ [span]) _ group' ?_ (hseen.readSpan rules hread) ?_)
      · rw [hspans, List.append_cons]
      · rw [← hread.last.1]
        exact hpending'

/-- The comment spans of a text, cut where one does not go on with the one
before. -/
def Rules.groups (rules : Rules) (text : List Char) : List (List Span) :=
  ((rules.spans text).filter (·.kind.isComment)).splitBy (rules.goesOn text)

/-- The comments of a text are made of the groups of its comment spans. -/
theorem comments_cut (hmerges : rules.mergesLineComments = true) :
    (rules.commentsOf text).map some
      = (rules.groups text).map (rules.merged text) :=
  commentsFrom_cut hmerges (rules.spans text) [] {} [] rfl (.fresh _) rfl

/-- Each comment is made of a group. -/
theorem comment_group (hmerges : rules.mergesLineComments = true) {c : Comment}
    (hc : c ∈ rules.commentsOf text) :
    ∃ group ∈ rules.groups text, rules.merged text group = some c := by
  have hmem : some c ∈ (rules.groups text).map (rules.merged text) := by
    rw [← comments_cut hmerges]
    exact List.mem_map_of_mem hc
  exact List.mem_map.1 hmem

/-- Each group makes a comment. -/
theorem group_comment (hmerges : rules.mergesLineComments = true)
    {group : List Span} (hgroup : group ∈ rules.groups text) :
    ∃ c ∈ rules.commentsOf text, rules.merged text group = some c := by
  have hmem : rules.merged text group ∈ (rules.commentsOf text).map some := by
    rw [comments_cut hmerges]
    exact List.mem_map_of_mem hgroup
  obtain ⟨c, hc, hmerged⟩ := List.mem_map.1 hmem
  exact ⟨c, hc, hmerged.symm⟩

end

end Marginalia
