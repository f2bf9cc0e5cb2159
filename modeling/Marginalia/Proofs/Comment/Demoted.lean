/-
Comments without the inner markers.

Where inner markers stand behind the outer ones, dropping them changes one
verdict only: an inner doc comment becomes a plain one (`verdict_demoted`).
Lines that were read as one comment then stand for themselves. So of the
comments of a text each inner doc comment gives way to the plain comments on
its lines, and all others stay (`comments_demoted`). Between two such lines
lies one line feed, never an empty line.

While an inner run is open, the plain comments on its lines are put out
already. `CommentState.Demoted` carries them along, as one step of the reading
shows (`readSpan_demoted`).
-/
import Marginalia.Proofs.Comment.Step
import Marginalia.Proofs.Span.Tiling

namespace Marginalia

-- ========================================================== verdicts

/-- The verdict when inner markers do not count. -/
def Verdict.demoted : Verdict → Verdict
  | doc marker => if marker.placement == .inner then .plain else .doc marker
  | plain => .plain
  | ignored => .ignored

/-- With the markers in place of its own, a table takes inner doc comments for
plain ones. -/
def Rules.Demotes (rules : Rules) (markers : List DocMarker) : Prop :=
  ∀ kind raw trailing, { rules with markers }.verdict kind raw trailing
    = (rules.verdict kind raw trailing).demoted

/-- The outer markers come first. -/
def Rules.OuterFirst (rules : Rules) : Prop :=
  ∃ outer inner, rules.markers = outer ++ inner
    ∧ (∀ m ∈ outer, m.placement = .outer) ∧ ∀ m ∈ inner, m.placement = .inner

/-- The verdict on a comment that trails no code. -/
theorem verdict_eq (rules : Rules) (kind : CommentKind) (raw : List Char) :
    rules.verdict kind raw false
      = ((rules.markers.find? fun m => m.kind == .comment kind
        && rules.opens m raw).map Verdict.doc).getD .plain := by
  rw [Rules.verdict, if_neg Bool.false_ne_true]
  cases rules.markers.find? fun m => m.kind == .comment kind
    && rules.opens m raw with
  | none => rfl
  | some m => rfl

/-- Without the inner markers an inner doc comment is a plain one. -/
theorem verdict_demoted {rules : Rules} (h : rules.OuterFirst) :
    rules.Demotes (rules.markers.filter (·.placement == .outer)) := by
  obtain ⟨outer, inner, hmarkers, houter, hinner⟩ := h
  have hfilter : rules.markers.filter (·.placement == .outer) = outer := by
    rw [hmarkers, List.filter_append, List.filter_eq_self.2,
      List.filter_eq_nil_iff.2, List.append_nil]
    · intro m hm
      rw [hinner m hm]
      decide
    · intro m hm
      rw [houter m hm]
      rfl
  intro kind raw trailing
  cases trailing with
  | true => rfl
  | false =>
      rw [hfilter, verdict_eq rules, hmarkers, List.find?_append]
      apply (verdict_eq _ kind raw).trans
      show ((outer.find? fun m => m.kind == .comment kind
        && rules.opens m raw).map Verdict.doc).getD .plain = _
      cases hfound : outer.find? fun m => m.kind == .comment kind
        && rules.opens m raw with
      | some m =>
          have hplace := houter m (List.mem_of_find?_eq_some hfound)
          simp [Verdict.demoted, hplace]
      | none =>
          rw [Option.none_or]
          cases hfound : inner.find? fun m => m.kind == .comment kind
            && rules.opens m raw with
          | some m =>
              have hplace := hinner m (List.mem_of_find?_eq_some hfound)
              simp [Verdict.demoted, hplace]
          | none => rfl

-- ======================================================= plain lines

/-- Plain comments from one offset to another, with at most one line feed
between each two. -/
inductive PlainLines (text : List Char) : Nat → Nat → List Comment → Prop where
  | last {c : Comment} (plain : c.isDoc = false) (ordered : c.start ≤ c.stop) :
      PlainLines text c.start c.stop [c]
  | next {c : Comment} {start stop : Nat} {cs : List Comment}
    (plain : c.isDoc = false)
      (ordered : c.start ≤ c.stop) (behind : c.stop ≤ start)
      (gap : (Text.slice text c.stop start).count '\n' ≤ 1)
      (rest : PlainLines text start stop cs) :
      PlainLines text c.start stop (c :: cs)

namespace PlainLines

variable {text : List Char} {start stop : Nat} {cs : List Comment}

/-- Lines end where they start or later. -/
theorem le (h : PlainLines text start stop cs) : start ≤ stop := by
  induction h with
  | last _ ordered => exact ordered
  | next _ ordered behind _ _ ih => omega

/-- A plain comment on the next line. -/
theorem snoc (h : PlainLines text start stop cs) {c : Comment}
    (plain : c.isDoc = false) (ordered : c.start ≤ c.stop)
    (behind : stop ≤ c.start)
    (gap : (Text.slice text stop c.start).count '\n' ≤ 1) :
    PlainLines text start c.stop (cs ++ [c]) := by
  induction h with
  | last plain' ordered' =>
      exact .next plain' ordered' behind gap (.last plain ordered)
  | next plain' ordered' behind' gap' _ ih =>
      exact .next plain' ordered' behind' gap' (ih behind gap)

/-- Each starts no later than the last one ends. -/
theorem start_le (h : PlainLines text start stop cs) :
    ∀ c ∈ cs, c.start ≤ stop := by
  induction h with
  | @last c _ ordered =>
      intro d hd
      rw [List.mem_singleton.1 hd]
      exact ordered
  | @next c start stop cs _ ordered behind _ rest ih =>
      intro d hd
      rcases List.mem_cons.1 hd with rfl | hd
      · have hle := rest.le
        omega
      · exact ih d hd

end PlainLines

/-- Comments of a text with inner markers and without them: an inner doc
comment gives way to the plain comments on its lines. -/
inductive Demoted (text : List Char) : List Comment → List Comment → Prop where
  | nil : Demoted text [] []
  | keep {c : Comment} {cs ds : List Comment}
      (outer : c.isDoc = true → c.placement = .outer)
      (rest : Demoted text cs ds) :
      Demoted text (c :: cs) (c :: ds)
  | demote {c : Comment} {lines cs ds : List Comment} (doc : c.isDoc = true)
      (inner : c.placement = .inner)
      (covers : PlainLines text c.start c.stop lines)
      (rest : Demoted text cs ds) : Demoted text (c :: cs) (lines ++ ds)

-- ====================================================== span by span

/-- What is carried from span to span with inner markers and without them,
when the text was read up to the offset. Of an inner run that is open, the
plain comments on its lines are out. -/
inductive CommentState.Demoted (text : List Char) (offset : Nat) :
    CommentState → CommentState → List Comment → Prop where
  | same {state : CommentState}
    (outer : ∀ run ∈ state.run, run.placement = .outer) :
      Demoted text offset state state []
  | inner {codeLine : Nat} {run : CommentRun} {lines : List Comment}
      (inner : run.placement = .inner)
      (covers : PlainLines text run.start run.stop lines)
      (behind : run.stop ≤ offset)
      (gap : Text.slice text run.stop offset = run.gap) :
      Demoted text offset ⟨codeLine, some run⟩ ⟨codeLine, none⟩ lines

section

variable {rules : Rules} {markers : List DocMarker} {text : List Char}
    {offset : Nat}
  {state state' : CommentState} {out : List Comment}

/-- No run is open. -/
theorem CommentState.Demoted.closed (codeLine : Nat) :
    CommentState.Demoted text offset ⟨codeLine, none⟩ ⟨codeLine, none⟩ [] :=
  .same fun _ hrun => nomatch hrun

/-- The markers have no say in where code stands. -/
theorem CommentState.Demoted.codeLine
    (h : state.Demoted text offset state' out) :
    state'.codeLine = state.codeLine := by
  cases h with
  | same => rfl
  | inner => rfl

/-- Finishing the open run. -/
theorem CommentState.Demoted.finish (h : state.Demoted text offset state' out)
    {cs ds : List Comment} (hrest : Marginalia.Demoted text cs ds) :
    Marginalia.Demoted text (rules.finishRun state.run ++ cs)
      (out ++ (rules.finishRun state'.run ++ ds)) := by
  cases h with
  | same outer =>
      cases hrun : state.run with
      | none => exact hrest
      | some run => exact .keep (fun _ => outer run hrun) hrest
  | inner inner covers => exact .demote rfl inner covers hrest

theorem slice_self (text : List Char) (offset : Nat) :
    Text.slice text offset offset = [] := by
  rw [Text.slice, Nat.sub_self, List.take_zero]

/-- What lies between a place and the end of the next characters. -/
theorem slice_extend {stop : Nat} (h : stop ≤ offset) {chars rest : List Char}
    (hchars : text.drop offset = chars ++ rest) :
    Text.slice text stop (offset + chars.length)
      = Text.slice text stop offset ++ chars := by
  have hlen : offset + chars.length - stop
      = (offset - stop) + chars.length := by omega
  have hoffset : stop + (offset - stop) = offset := by omega
  unfold Text.slice
  rw [hlen, List.take_add, List.drop_drop, hoffset, hchars, List.take_left]

/-- Only a verdict with a marker gives a line of a run. -/
theorem docLine?_eq_some {kind : CommentKind} {verdict : Verdict}
    {marker : DocMarker} (h : rules.docLine? kind verdict = some marker) :
    verdict = .doc marker := by
  unfold Rules.docLine? at h
  split at h
  · rw [Option.some.inj h]
  · cases h

/-- A comment that is no inner doc comment is read alike. -/
theorem readVerdict_kept (h : state.Demoted text offset state' out)
    (span : Span) (kind : CommentKind) {verdict : Verdict} (line : Nat)
    (houter : ∀ marker, verdict = .doc marker → marker.placement = .outer) :
    (rules.readVerdict line state span kind verdict).2.Demoted text span.stop
        (rules.readVerdict line state' span kind verdict).2 []
      ∧ ∀ cs ds, Demoted text cs ds →
        Demoted text ((rules.readVerdict line state span kind verdict).1 ++ cs)
          (out ++ ((rules.readVerdict line state' span kind verdict).1
            ++ ds)) := by
  have hcomment : (rules.comment span kind verdict line).isDoc = true →
      (rules.comment span kind verdict line).placement = .outer := by
    intro _
    cases verdict with
    | doc marker => exact houter marker rfl
    | plain => rfl
    | ignored => rfl
  unfold Rules.readVerdict
  cases hline : rules.docLine? kind verdict with
  | none =>
      refine ⟨?_, fun cs ds hrest => ?_⟩
      · simp only [h.codeLine]
        exact .closed _
      · rw [List.append_assoc, List.append_assoc]
        exact h.finish (.keep hcomment hrest)
  | some marker =>
      have hplace := houter marker (docLine?_eq_some hline)
      have hsingle : ∀ run ∈ some (CommentRun.single span marker line),
          run.placement = .outer := by
        intro run hrun
        rw [← Option.some.inj hrun]
        exact hplace
      have hfinish : ∀ cs ds,
          Demoted text cs ds → Demoted text (rules.finishRun state.run ++ cs)
          (out ++ (rules.finishRun state'.run ++ ds)) := fun _ _ => h.finish
      cases h with
      | same outer =>
          simp only
          split
          · refine ⟨.same fun run hrun => ?_, fun cs ds hrest => hrest⟩
            obtain ⟨joined, hjoined, rfl⟩ := Option.map_eq_some_iff.1 hrun
            exact outer joined hjoined
          · exact ⟨.same hsingle, hfinish⟩
      | @inner codeLine run lines inner covers behind gap =>
          -- the inner run ends, where without it none was open
          have hadmits : (some run).any (·.admits marker.placement)
              = false := by
            simp [CommentRun.admits, inner, hplace]
          simp only [hadmits]
          exact ⟨.same hsingle,
            fun cs ds hrest => .demote rfl inner covers hrest⟩

/-- Without its marker an inner doc comment is a plain one on a line of its
own. -/
theorem readVerdict_inner (h : state.Demoted text offset state' out)
    {span : Span} (hstart : span.start = offset) (kind : CommentKind)
    {marker : DocMarker} (line : Nat) (hinner : marker.placement = .inner) :
    ∃ out', (rules.readVerdict line state span kind (.doc marker)).2.Demoted
      text span.stop
        (rules.readVerdict line state' span kind .plain).2 out'
      ∧ ∀ cs ds, Demoted text cs (out' ++ ds) →
        Demoted text
          ((rules.readVerdict line state span kind (.doc marker)).1 ++ cs)
          (out ++ ((rules.readVerdict line state' span kind .plain).1
            ++ ds)) := by
  have hplain : (rules.comment span kind .plain line).isDoc = false := rfl
  have hordered : span.start ≤ span.stop := Nat.le_add_right _ _
  have hline : PlainLines text span.start span.stop
      [rules.comment span kind .plain line] :=
    .last hplain hordered
  show ∃ out',
    (rules.readVerdict line state span kind (.doc marker)).2.Demoted text
      span.stop { state' with run := none } out'
    ∧ ∀ cs ds, Demoted text cs (out' ++ ds) →
      Demoted text
        ((rules.readVerdict line state span kind (.doc marker)).1 ++ cs)
        (out ++ (rules.finishRun state'.run
          ++ [rules.comment span kind .plain line] ++ ds))
  unfold Rules.readVerdict
  cases hdoc : rules.docLine? kind (.doc marker) with
  | none =>
      refine ⟨[], ?_, fun cs ds hrest => ?_⟩
      · simp only [h.codeLine]
        exact .closed _
      · rw [List.append_assoc, List.append_assoc]
        exact h.finish (.demote rfl hinner hline hrest)
  | some m =>
      obtain rfl : marker = m := Verdict.doc.inj (docLine?_eq_some hdoc)
      simp only
      split
      · next hadmits =>
        obtain ⟨run, hrun, hjoins⟩ := (Option.any_eq_true _ _).1 hadmits
        simp only [CommentRun.admits, Bool.and_eq_true, beq_iff_eq] at hjoins
        obtain ⟨⟨hplace, hcount⟩, -⟩ := hjoins
        cases h with
        | same outer =>
            rw [outer run hrun, hinner] at hplace
            cases hplace
        | @inner codeLine run' lines inner covers behind gap =>
            obtain rfl : run' = run := Option.some.inj hrun
            rw [← hstart] at behind gap
            refine ⟨out ++ [rules.comment span kind .plain line], ?_,
              fun cs ds hrest => ?_⟩
            · refine .inner inner (covers.snoc hplain hordered behind ?_)
                (Nat.le_refl _) ?_
              · show (Text.slice text run'.stop span.start).count '\n' ≤ 1
                rw [gap]
                exact Nat.le_of_eq hcount
              · exact slice_self text span.stop
            · rw [List.append_assoc] at hrest
              exact hrest
      · refine ⟨[rules.comment span kind .plain line], ?_,
          fun cs ds hrest => ?_⟩
        · simp only [h.codeLine]
          exact .inner hinner hline (Nat.le_refl _) (slice_self text span.stop)
        · rw [List.append_assoc]
          exact h.finish hrest

/-- A comment is judged by all markers on one side and by some on the
other. If it loses its marker, the lines it would have been joined from
are given one by one. -/
theorem readComment_demoted (hdemotes : rules.Demotes markers)
    (lines : Text.Lines) (h : state.Demoted text offset state' out)
    {span : Span} (hstart : span.start = offset) (kind : CommentKind) :
    ∃ out', (rules.readComment lines state span kind).2.Demoted text span.stop
        ({ rules with markers }.readComment lines state' span kind).2 out'
      ∧ ∀ cs ds, Demoted text cs (out' ++ ds) →
        Demoted text ((rules.readComment lines state span kind).1 ++ cs)
          (out ++ (({ rules with markers }.readComment lines state' span kind).1
            ++ ds)) := by
  have hwith : rules.readComment lines state span kind
      = rules.readVerdict (lines.lineOf span.start) state span kind
        (rules.verdict kind span.chars
          (lines.lineOf span.start == state.codeLine)) := rfl
  have hwithout : { rules with markers }.readComment lines state' span kind
      = rules.readVerdict (lines.lineOf span.start) state' span kind
        (rules.verdict kind span.chars
          (lines.lineOf span.start == state.codeLine)).demoted := by
    rw [← h.codeLine, ← hdemotes]
    rfl
  rw [hwith, hwithout]
  cases rules.verdict kind span.chars
    (lines.lineOf span.start == state.codeLine) with
  | doc marker =>
      cases hplace : marker.placement with
      | inner =>
          simp only [Verdict.demoted, hplace, beq_self_eq_true, if_true]
          exact readVerdict_inner h hstart kind _ hplace
      | outer =>
          have hkept : (Verdict.doc marker).demoted = .doc marker := by
            simp [Verdict.demoted, hplace]
          rw [hkept]
          refine ⟨[], readVerdict_kept h span kind _ fun m hm => ?_⟩
          rw [← Verdict.doc.inj hm, hplace]
  | plain => exact ⟨[], readVerdict_kept h span kind _ fun m hm => nomatch hm⟩
  | ignored => exact ⟨[], readVerdict_kept h span kind _ fun m hm => nomatch hm⟩

/-- Code ends the runs of both sides, or white space lets both go on. -/
theorem readCode_demoted (lines : Text.Lines)
    (h : state.Demoted text offset state' out) {span : Span}
    (hstart : span.start = offset) {rest : List Char}
    (hchars : text.drop offset = span.chars ++ rest) :
    ∃ out', (rules.readCode lines state span).2.Demoted text span.stop
        (rules.readCode lines state' span).2 out'
      ∧ ∀ cs ds, Demoted text cs (out' ++ ds) →
        Demoted text ((rules.readCode lines state span).1 ++ cs)
          (out ++ ((rules.readCode lines state' span).1 ++ ds)) := by
  unfold Rules.readCode
  simp only
  split
  · refine ⟨out, ?_, fun cs ds hrest => hrest⟩
    cases h with
    | same outer =>
        refine .same fun run hrun => ?_
        obtain ⟨skipped, hskipped, rfl⟩ := Option.map_eq_some_iff.1 hrun
        exact outer skipped hskipped
    | @inner codeLine run lines inner covers behind gap =>
        have hstop : span.stop = offset + span.chars.length :=
          congrArg (· + _) hstart
        refine .inner inner covers ?_ ?_
        · show run.stop ≤ span.stop
          omega
        · show Text.slice text run.stop span.stop = run.gap ++ span.chars
          rw [hstop, slice_extend behind hchars, gap]
  · exact ⟨[], .closed _, fun cs ds hrest => h.finish hrest⟩

/-- One span: where inner markers make it part of an inner run, it puts out a
plain comment without them. -/
theorem readSpan_demoted (hdemotes : rules.Demotes markers) (lines : Text.Lines)
    (h : state.Demoted text offset state' out) {span : Span}
    (hstart : span.start = offset) {rest : List Char}
    (hchars : text.drop offset = span.chars ++ rest) :
    ∃ out', (rules.readSpan lines state span).2.Demoted text span.stop
        ({ rules with markers }.readSpan lines state' span).2 out'
      ∧ ∀ cs ds, Demoted text cs (out' ++ ds) →
        Demoted text ((rules.readSpan lines state span).1 ++ cs)
          (out ++ (({ rules with markers }.readSpan lines state' span).1
            ++ ds)) := by
  unfold Rules.readSpan
  split
  · exact readComment_demoted hdemotes lines h hstart _
  · exact readCode_demoted lines h hstart hchars

end

/-- The rest of a text. -/
theorem commentsFrom_demoted {rules : Rules} {markers : List DocMarker}
    (hdemotes : rules.Demotes markers) (lines : Text.Lines) {text : List Char}
    (spans : List Span) :
    ∀ (offset : Nat) (state state' : CommentState) (out : List Comment),
      Tiles offset spans →
      text.drop offset = spans.flatMap (·.chars) →
      state.Demoted text offset state' out →
      Demoted text (rules.commentsFrom lines state.codeLine state.run spans)
        (out ++ { rules with markers }.commentsFrom lines state'.codeLine
          state'.run spans) := by
  induction spans with
  | nil =>
      intro offset state state' out _ _ h
      have hfinish : Demoted text (rules.finishRun state.run ++ [])
          (out ++ (rules.finishRun state'.run ++ [])) := h.finish .nil
      rw [List.append_nil, List.append_nil] at hfinish
      exact hfinish
  | cons span spans ih =>
      intro offset state state' out htiles hchars h
      obtain ⟨hstart, -, htail⟩ := htiles
      rw [List.flatMap_cons] at hchars
      obtain ⟨out', hstate, hstep⟩ :=
        readSpan_demoted hdemotes lines h hstart hchars
      have hrest : text.drop span.stop = spans.flatMap (·.chars) := by
        rw [Span.stop, hstart, ← List.drop_drop, hchars, List.drop_left]
      rw [commentsFrom_cons, commentsFrom_cons]
      exact hstep _ _ (ih span.stop _ _ out' htail hrest hstate)

/-- Of the comments of a text, the inner doc comments give way to the plain
ones on their lines. -/
theorem comments_demoted {rules : Rules} {markers : List DocMarker}
    (hdemotes : rules.Demotes markers) (lines : Text.Lines) (text : List Char) :
    Demoted text (rules.comments lines (rules.spans text))
      ({ rules with markers }.comments lines (rules.spans text)) :=
  commentsFrom_demoted hdemotes lines _ 0 {} {} [] (spans_tiles rules text)
    (spans_chars rules text).symm (.closed 0)

end Marginalia
