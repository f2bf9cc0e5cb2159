/-
Comments of two texts with an empty line between them.

Two things are carried along the spans while comments are read off them: the
line on which code was last seen, and the run of doc lines that is open. An
empty line ends a run for good, and no comment of the second text stands on a
line of the first. So the comments are those of the first text and, further
on, those of the second (`comments_joined`).
-/
import Marginalia.Proofs.Association.Moved
import Marginalia.Proofs.Association.Stream
import Marginalia.Proofs.Span.Joined
import Marginalia.Proofs.Text.Joined

namespace Marginalia

-- =================================================== the second text

theorem Span.moved_stop (k : Nat) (span : Span) :
    (span.moved k).stop = span.stop + k :=
  Nat.add_right_comm _ _ _

/-- The run, `k` characters and `l` lines further on. -/
def CommentRun.moved (k l : Nat) (run : CommentRun) : CommentRun :=
  { run with
    start := run.start + k, stop := run.stop + k, line := run.line + l }

/-- The lines on which code was last seen in two texts say the same of a
comment of the one and of the same comment `l` lines further on in the other. -/
def CodeLineMoved (l codeLine codeLine' : Nat) : Prop :=
  ∀ line, 1 ≤ line → (line + l == codeLine') = (line == codeLine)

/-- The line of code moved down by as many lines. -/
theorem CodeLineMoved.add (l codeLine : Nat) :
    CodeLineMoved l codeLine (codeLine + l) := by
  intro line _
  rw [Bool.eq_iff_iff, beq_iff_eq, beq_iff_eq]
  omega

/-- Code on a line in front of the second text is no code of the second
text. -/
theorem CodeLineMoved.before {l codeLine' : Nat} (h : codeLine' ≤ l) :
    CodeLineMoved l 0 codeLine' := by
  intro line hline
  rw [Bool.eq_iff_iff, beq_iff_eq, beq_iff_eq]
  omega

section

variable {k l : Nat}

/-- A run that is finished further on gives its comment, moved. -/
theorem finishRun_moved (rules : Rules) (run : Option CommentRun) :
    rules.finishRun (run.map (·.moved k l))
      = (rules.finishRun run).map (·.moved k l) := by
  cases run <;> rfl

/-- A run starts with the moved comment. -/
theorem CommentRun.single_moved (span : Span) (marker : DocMarker)
    (line : Nat) :
    CommentRun.single (span.moved k) marker (line + l)
      = (CommentRun.single span marker line).moved k l := by
  simp only [CommentRun.single, CommentRun.moved, Span.moved_stop]
  rfl

theorem CommentRun.push_moved (run : CommentRun) (span : Span)
    (marker : DocMarker) :
    (run.moved k l).push (span.moved k) marker
      = (run.push span marker).moved k l := by
  simp only [CommentRun.push, CommentRun.moved, Span.moved_stop]
  rfl

/-- A comment is the same comment further on: its text and marker do not
move. -/
theorem comment_moved (rules : Rules) (span : Span) (kind : CommentKind)
    (verdict : Verdict) (line : Nat) :
    rules.comment (span.moved k) kind verdict (line + l)
      = (rules.comment span kind verdict line).moved k l := by
  simp only [Rules.comment, Comment.moved, Span.moved_stop]
  rfl

/-- What is carried from span to span in two texts. -/
structure CommentState.Moved (k l : Nat) (state state' : CommentState) :
    Prop where
  codeLine : CodeLineMoved l state.codeLine state'.codeLine
  run : state'.run = state.run.map (·.moved k l)

variable {lines lines' : Text.Lines} {state state' : CommentState}

/-- A comment further on is judged the same, as its characters are the same.
Whether it trails code or goes on with the run before is asked of lines, all of
which have moved by `l`. -/
theorem readComment_moved (rules : Rules)
    (hlines : ∀ offset, lines'.lineOf (offset + k) = lines.lineOf offset + l)
    (hpos : ∀ offset, 1 ≤ lines.lineOf offset) (h : state.Moved k l state')
    (span : Span) (kind : CommentKind) :
    (rules.readComment lines' state' (span.moved k) kind).1
        = (rules.readComment lines state span kind).1.map (·.moved k l)
      ∧ (rules.readComment lines state span kind).2.Moved k l
        (rules.readComment lines' state' (span.moved k) kind).2 := by
  have hline : lines'.lineOf (span.moved k).start
      = lines.lineOf span.start + l := hlines _
  have hchars : (span.moved k).chars = span.chars := rfl
  unfold Rules.readComment Rules.readVerdict
  simp only [hline, hchars, h.codeLine _ (hpos _), h.run]
  generalize rules.verdict kind span.chars
      (lines.lineOf span.start == state.codeLine) = verdict
  cases rules.docLine? kind verdict with
  | none =>
      refine ⟨?_, h.codeLine, rfl⟩
      rw [finishRun_moved, comment_moved, List.map_append]
      rfl
  | some marker =>
      have hadmits : (state.run.map (·.moved k l)).any
          (·.admits marker.placement)
          = state.run.any (·.admits marker.placement) := by
        cases state.run <;> rfl
      simp only [hadmits]
      by_cases hjoins : state.run.any (·.admits marker.placement) = true
      · rw [if_pos hjoins, if_pos hjoins]
        refine ⟨rfl, h.codeLine, ?_⟩
        cases state.run with
        | none => rfl
        | some run =>
            exact congrArg some (CommentRun.push_moved run span marker)
      · rw [if_neg hjoins, if_neg hjoins]
        exact ⟨finishRun_moved rules state.run, h.codeLine,
          congrArg some (CommentRun.single_moved span marker _)⟩

/-- Code further on ends the same runs. -/
theorem readCode_moved (rules : Rules)
    (hlines : ∀ offset, lines'.lineOf (offset + k) = lines.lineOf offset + l)
    (h : state.Moved k l state') (span : Span) :
    (rules.readCode lines' state' (span.moved k)).1
        = (rules.readCode lines state span).1.map (·.moved k l)
      ∧ (rules.readCode lines state span).2.Moved k l
        (rules.readCode lines' state' (span.moved k)).2 := by
  have hstart : (span.moved k).start = span.start + k := rfl
  have hchars : (span.moved k).chars = span.chars := rfl
  unfold Rules.readCode
  simp only [hstart, hchars, h.run]
  by_cases hblank : (Text.trimRight span.chars).isEmpty = true
  · rw [if_pos hblank, if_pos hblank]
    refine ⟨rfl, h.codeLine, ?_⟩
    cases state.run <;> rfl
  · have hlength : 0 < (Text.trimRight span.chars).length := by
      rw [List.length_pos_iff]
      exact fun hnil => hblank (List.isEmpty_iff.2 hnil)
    have hline : lines'.lineOf
        (span.start + k + (Text.trimRight span.chars).length - 1)
        = lines.lineOf (span.start + (Text.trimRight span.chars).length - 1)
          + l := by
      rw [← hlines]
      exact congrArg lines'.lineOf (by omega)
    rw [if_neg hblank, if_neg hblank, hline]
    exact ⟨finishRun_moved rules state.run, .add l _, rfl⟩

/-- The same span further on finishes the same comments further on. -/
theorem readSpan_moved (rules : Rules)
    (hlines : ∀ offset, lines'.lineOf (offset + k) = lines.lineOf offset + l)
    (hpos : ∀ offset, 1 ≤ lines.lineOf offset) (h : state.Moved k l state')
    (span : Span) :
    (rules.readSpan lines' state' (span.moved k)).1
        = (rules.readSpan lines state span).1.map (·.moved k l)
      ∧ (rules.readSpan lines state span).2.Moved k l
        (rules.readSpan lines' state' (span.moved k)).2 := by
  have hkind : (span.moved k).kind = span.kind := rfl
  unfold Rules.readSpan
  rw [hkind]
  split
  · exact readComment_moved rules hlines hpos h span _
  · exact readCode_moved rules hlines h span

/-- The same spans further on have the same comments further on. -/
theorem commentsFrom_moved (rules : Rules)
    (hlines : ∀ offset, lines'.lineOf (offset + k) = lines.lineOf offset + l)
    (hpos : ∀ offset, 1 ≤ lines.lineOf offset) (spans : List Span) :
    ∀ state state' : CommentState, state.Moved k l state' →
      rules.commentsFrom lines' state'.codeLine state'.run
        (spans.map (·.moved k))
        = (rules.commentsFrom lines state.codeLine state.run spans).map
          (·.moved k l) := by
  induction spans with
  | nil =>
      intro state state' h
      rw [h.run]
      exact finishRun_moved rules state.run
  | cons span spans ih =>
      intro state state' h
      obtain ⟨hcomments, hstate⟩ := readSpan_moved rules hlines hpos h span
      rw [List.map_cons, commentsFrom_cons, commentsFrom_cons, hcomments,
        ih _ _ hstate, List.map_append]

end

-- ==================================================== the first text

/-- A span is read in a longer text as in its own. -/
theorem readSpan_front (rules : Rules) {lines lines' : Text.Lines} {limit : Nat}
    (hlines : LinesMoved 0 0 limit lines lines') (state : CommentState)
    {span : Span} (hstop : span.stop ≤ limit) :
    rules.readSpan lines' state span = rules.readSpan lines state span := by
  have hspan : span.start + span.chars.length ≤ limit := hstop
  have hlength := Text.trimRight_length_le span.chars
  have hlast : span.start + (Text.trimRight span.chars).length - 1 ≤ limit := by
    omega
  have hstart : lines'.lineOf span.start = lines.lineOf span.start :=
    hlines _ (Nat.le_trans (Nat.le_add_right _ _) hspan)
  have hline : lines'.lineOf
      (span.start + (Text.trimRight span.chars).length - 1)
      = lines.lineOf (span.start + (Text.trimRight span.chars).length - 1) :=
        hlines _ hlast
  simp only [Rules.readSpan, Rules.readComment, Rules.readVerdict,
    Rules.readCode, hstart, hline]

/-- Spans that lie in the first text are read by its lines. -/
theorem readSpans_front (rules : Rules) {lines lines' : Text.Lines}
    {limit : Nat} (hlines : LinesMoved 0 0 limit lines lines')
    (spans : List Span) :
    ∀ state : CommentState, (∀ span ∈ spans, span.stop ≤ limit) →
      rules.readSpans lines' state spans
        = rules.readSpans lines state spans := by
  induction spans with
  | nil => intro state _; rfl
  | cons span spans ih =>
      intro state hstops
      rw [Rules.readSpans, Rules.readSpans,
        readSpan_front rules hlines state (hstops span List.mem_cons_self),
        ih _ fun s hs => hstops s (List.mem_cons_of_mem span hs)]

/-- Code is last seen on a line of the text. -/
theorem readSpan_codeLine (rules : Rules) {lines : Text.Lines} {bound : Nat}
    (hbound : ∀ offset, lines.lineOf offset ≤ bound) {state : CommentState}
    (h : state.codeLine ≤ bound) (span : Span) :
    (rules.readSpan lines state span).2.codeLine ≤ bound := by
  unfold Rules.readSpan
  split
  · unfold Rules.readComment Rules.readVerdict
    simp only
    split
    · split <;> exact h
    · exact h
  · unfold Rules.readCode
    simp only
    split
    · exact h
    · exact hbound _

/-- The line of code is one of the lines. -/
theorem readSpans_codeLine (rules : Rules) {lines : Text.Lines} {bound : Nat}
    (hbound : ∀ offset, lines.lineOf offset ≤ bound) (spans : List Span) :
    ∀ state : CommentState, state.codeLine ≤ bound →
      (rules.readSpans lines state spans).2.codeLine ≤ bound := by
  induction spans with
  | nil => intro state h; exact h
  | cons span spans ih =>
      intro state h
      exact ih _ (readSpan_codeLine rules hbound h span)

-- ========================================================== the seam

/-- A run that an empty line follows is closed. -/
theorem commentsFrom_closed (rules : Rules) (lines : Text.Lines)
    (spans : List Span) :
    ∀ codeLine run, 2 ≤ run.gap.count '\n' →
      rules.commentsFrom lines codeLine (some run) spans
        = rules.finishRun (some run)
          ++ rules.commentsFrom lines codeLine none spans := by
  induction spans with
  | nil =>
      intro codeLine run _
      exact (List.append_nil _).symm
  | cons span spans ih =>
      intro codeLine run hgap
      have hopen :=
        commentsFrom_cons rules lines ⟨codeLine, some run⟩ span spans
      have hnone := commentsFrom_cons rules lines ⟨codeLine, none⟩ span spans
      simp only at hopen hnone
      rw [hopen, hnone]
      by_cases hkind : ∃ kind, span.kind = .comment kind
      · obtain ⟨kind, hkind⟩ := hkind
        have hadmits : ∀ placement, run.admits placement = false := by
          intro placement
          have hcount : (run.gap.count '\n' == 1) = false := by
            rw [beq_eq_false_iff_ne]
            omega
          simp [CommentRun.admits, hcount]
        rw [readSpan_comment rules lines _ hkind,
          readSpan_comment rules lines _ hkind]
        simp only [Rules.readComment, Rules.readVerdict]
        split
        · simp only [Option.any_some, hadmits, Option.any_none,
            Bool.false_eq_true, if_false]
          rfl
        · rfl
      · have hcode : ∀ kind, span.kind ≠ .comment kind :=
          fun kind h => hkind ⟨kind, h⟩
        rw [readSpan_code rules lines _ hcode,
          readSpan_code rules lines _ hcode]
        simp only [Rules.readCode]
        split
        · -- white space makes the gap no shorter
          refine ih codeLine (run.skip span.chars) ?_
          rw [CommentRun.skip, List.count_append]
          omega
        · rfl

/-- The line on which code was last seen after a stretch of code. -/
def codeLineAfter (lines : Text.Lines) (codeLine start : Nat)
    (chars : List Char) : Nat :=
  if (Text.trimRight chars).isEmpty then codeLine
  else lines.lineOf (start + (Text.trimRight chars).length - 1)

/-- A stretch of code with an empty line in it finishes the open run. -/
theorem commentsFrom_parted (rules : Rules) (lines : Text.Lines)
    (codeLine : Nat) (run : Option CommentRun) {span : Span}
    (hkind : span.kind = .code) (hbreaks : 2 ≤ span.chars.count '\n')
    (spans : List Span) :
    rules.commentsFrom lines codeLine run (span :: spans)
      = rules.finishRun run
        ++ rules.commentsFrom lines
          (codeLineAfter lines codeLine span.start span.chars) none spans := by
  have hcode : ∀ kind, span.kind ≠ .comment kind := by
    intro kind h
    rw [hkind] at h
    cases h
  have hcons := commentsFrom_cons rules lines ⟨codeLine, run⟩ span spans
  simp only [readSpan_code rules lines _ hcode, Rules.readCode] at hcons
  unfold codeLineAfter
  rw [hcons]
  split
  · cases run with
    | none => rfl
    | some run =>
        refine commentsFrom_closed rules lines spans codeLine
          (run.skip span.chars) ?_
        rw [CommentRun.skip, List.count_append]
        omega
  · rfl

/-- A piece of code with no run before it gives no comment, and only moves the
line of code on. -/
theorem commentsFrom_codeSpan (rules : Rules) (lines : Text.Lines)
    (codeLine start : Nat) (chars : List Char) (spans : List Span) :
    rules.commentsFrom lines codeLine none (codeSpan start chars ++ spans)
      = rules.commentsFrom lines (codeLineAfter lines codeLine start chars) none
        spans := by
  cases chars with
  | nil => rfl
  | cons c cs =>
      have hcons := commentsFrom_cons rules lines ⟨codeLine, none⟩
        { kind := .code, start, chars := c :: cs } spans
      simp only [Rules.readSpan, Rules.readCode] at hcons
      unfold codeLineAfter
      rw [codeSpan, if_neg (by simp), List.cons_append, List.nil_append, hcons]
      split <;> rfl

/-- At the end of the text, code ends the run before it. -/
theorem commentsFrom_last (rules : Rules) (lines : Text.Lines)
    (codeLine start : Nat) (run : Option CommentRun) (chars : List Char) :
    rules.commentsFrom lines codeLine run (codeSpan start chars)
      = rules.finishRun run := by
  cases chars with
  | nil => rfl
  | cons c cs =>
      have hcons := commentsFrom_cons rules lines ⟨codeLine, run⟩
        { kind := .code, start, chars := c :: cs } []
      simp only [Rules.readSpan, Rules.readCode] at hcons
      rw [codeSpan, if_neg (by simp), hcons]
      split
      · cases run <;> rfl
      · exact List.append_nil _

/-- Code in the first text and code in the second are told apart by their
lines. -/
theorem codeLineAfter_joined {a codeA : List Char} {last codeLine : Nat}
    (hlast : last + codeA.length = a.length)
    (hcode : codeLine ≤ a.count '\n' + 1) (b codeB : List Char) :
    CodeLineMoved (a.count '\n' + 2) (codeLineAfter (.ofText b) 0 0 codeB)
      (codeLineAfter (.ofText (a ++ '\n' :: '\n' :: b)) codeLine last
        (codeA ++ '\n' :: '\n' :: codeB)) := by
  unfold codeLineAfter
  by_cases hblank : Text.trimRight codeB = []
  · have hseam : Text.trimRight ('\n' :: '\n' :: codeB) = [] :=
      Text.dropRightWhile_append_nil hblank ['\n', '\n']
    have htrim : Text.trimRight (codeA ++ '\n' :: '\n' :: codeB)
        = Text.trimRight codeA :=
      Text.dropRightWhile_append_nil hseam codeA
    have hlength := Text.trimRight_length_le codeA
    rw [htrim, if_pos (List.isEmpty_iff.2 hblank)]
    refine CodeLineMoved.before ?_
    split
    · omega
    · rw [Text.Lines.lineOf_front _ _ (by omega)]
      exact Nat.le_succ_of_le (Text.Lines.lineOf_le _ _)
  · have hseam : Text.trimRight ('\n' :: '\n' :: codeB)
        = '\n' :: '\n' :: Text.trimRight codeB :=
      Text.dropRightWhile_append hblank ['\n', '\n']
    have htrim : Text.trimRight (codeA ++ '\n' :: '\n' :: codeB)
        = codeA ++ '\n' :: '\n' :: Text.trimRight codeB := by
      rw [← hseam]
      exact Text.dropRightWhile_append
        (by rw [← Text.trimRight, hseam]; simp) codeA
    have hlength : 0 < (Text.trimRight codeB).length :=
      List.length_pos_iff.2 hblank
    have hoffset : last
        + (codeA ++ '\n' :: '\n' :: Text.trimRight codeB).length - 1
        = 0 + (Text.trimRight codeB).length - 1 + (a.length + 2) := by
      simp only [List.length_append, List.length_cons]
      omega
    rw [htrim, if_neg (by simpa using hblank), if_neg (by simp), hoffset,
      Text.Lines.lineOf_back]
    exact CodeLineMoved.add _ _

/-- The comments of two texts with an empty line between them. -/
theorem comments_joined {rules : Rules} (hplain : rules.isPlain = true)
    {a : List Char} (hclosed : ∀ span ∈ rules.spans a, span.unclosed = none)
    (b : List Char) :
    rules.commentsOf (a ++ '\n' :: '\n' :: b)
      = rules.commentsOf a
        ++ (rules.commentsOf b).map
          (·.moved (a.length + 2) (a.count '\n' + 2)) := by
  obtain ⟨front, last, codeA, codeB, back, hspansA, hlast, hspansB, hspans⟩ :=
    spans_joined hplain hclosed b
  have hstops : ∀ span ∈ front, span.stop ≤ a.length := by
    intro span hspan
    have hstop := ((spans_tiles rules a).mem
      (by rw [hspansA]; exact List.mem_append_left _ hspan)).2.2
    rwa [spans_end] at hstop
  -- what is carried over the seam is the same in both texts
  have hfront :=
    readSpans_front rules (Text.linesMoved_front a ('\n' :: '\n' :: b)) front
      {} hstops
  have hcode :=
    readSpans_codeLine rules (Text.Lines.lineOf_le a) front {} (Nat.zero_le _)
  have hbreaks : 2 ≤ (codeA ++ '\n' :: '\n' :: codeB).count '\n' := by
    simp only [List.count_append, List.count_cons_self]
    omega
  have hback :=
    commentsFrom_moved rules (Text.Lines.lineOf_back a b)
      (Text.Lines.lineOf_pos b)
    back ⟨codeLineAfter (.ofText b) 0 0 codeB, none⟩
    ⟨codeLineAfter (.ofText (a ++ '\n' :: '\n' :: b)) _ last
      (codeA ++ '\n' :: '\n' :: codeB), none⟩
    ⟨codeLineAfter_joined hlast hcode b codeB, rfl⟩
  have hjoined :=
    commentsFrom_append rules (.ofText (a ++ '\n' :: '\n' :: b)) front
    ({ kind := .code, start := last, chars := codeA ++ '\n' :: '\n' :: codeB }
      :: back.map (·.moved (a.length + 2))) {}
  have halone :=
    commentsFrom_append rules (.ofText a) front (codeSpan last codeA) {}
  rw [hfront, commentsFrom_parted rules _ _ _ rfl hbreaks, hback] at hjoined
  rw [commentsFrom_last] at halone
  rw [Rules.commentsOf, Rules.commentsOf, Rules.commentsOf, Rules.comments,
    Rules.comments, Rules.comments, hspans, hspansA, hspansB, hjoined, halone,
    commentsFrom_codeSpan, List.append_assoc]

end Marginalia
