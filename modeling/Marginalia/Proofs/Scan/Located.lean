/-
Where the findings of a scan lie.

Every text is accepted: settings that pass their check apply to every dialect,
and to the same rules whether they are applied as they were written or as the
options that the check made of them (`applyTo_of_check`). By these rules a text
can be read and its comments judged (`Dialect.usable`, `Dialect.judges`), and a
header, whatever its tokens, can be read by position without an access out of
range (`Rules.ReadsByPosition`). What the scan then finds lies in the text, and
its line is the number of line feeds in front of it and one
(`lineOf_eq_lineAt`).

Each finding has its place from somewhere else. A comment has it from the
spans, and a run of doc lines keeps the line of its first (`RunOnLine`). A
declaration has it from a token of its header, which may have waited on the
stack while a body was read (`declarations_start`). A brace that closes
nothing is a token itself; scopes left open are reported where the innermost
one was opened, at a brace or where its declaration starts, so that every
level on the stack has to be traced back to a token (`OpenedAt`).
-/
import Marginalia.Proofs.Association.Statement
import Marginalia.Proofs.Header.InRange
import Marginalia.Proofs.Scan.Braces
import Marginalia.Proofs.Token.Joined

namespace Marginalia

-- ============================================================= lines

/-- One and the line feeds in front of an offset. -/
def Text.lineAt (text : List Char) (offset : Nat) : Nat :=
  1 + (text.take offset).count '\n'

namespace Text

/-- The line feeds in front of a place are the lines that start up to it. -/
theorem startsAfter_countP (text : List Char) :
    ∀ base offset, (startsAfter base text).countP (· ≤ base + offset)
      = (text.take offset).count '\n' := by
  induction text with
  | nil =>
      intro base offset
      rw [List.take_nil]
      rfl
  | cons c text ih =>
      intro base offset
      cases offset with
      | zero =>
          refine List.countP_eq_zero.2 fun start hstart => ?_
          have hbounds := mem_startsAfter hstart
          simp only [decide_eq_true_eq]
          omega
      | succ offset =>
          have hrest := ih (base + 1) offset
          rw [Nat.add_right_comm, Nat.add_assoc] at hrest
          rw [List.take_succ_cons, List.count_cons, startsAfter]
          split
          · rw [List.countP_cons_of_pos
              (by simp only [decide_eq_true_eq]; omega), hrest]
          · rw [hrest, Nat.add_zero]

/-- The line that is looked up for an offset is the one counted from the
front. -/
theorem Lines.lineOf_eq_lineAt (text : List Char) (offset : Nat) :
    (Lines.ofText text).lineOf offset = lineAt text offset := by
  have hstarts := startsAfter_countP text 0 offset
  rw [Nat.zero_add] at hstarts
  rw [lineOf, ofText, List.countP_cons_of_pos (by simp), hstarts, lineAt,
    Nat.add_comm]

end Text

/-- The offset lies in the text, on the line. -/
structure Text.Locates (text : List Char) (offset line : Nat) : Prop where
  inside : offset < text.length
  line : line = Text.lineAt text offset

theorem Text.Locates.of_lineOf {text : List Char} {offset line : Nat}
    (hinside : offset < text.length)
    (hline : line = (Text.Lines.ofText text).lineOf offset) :
    Text.Locates text offset line :=
  ⟨hinside, by rw [hline, Text.Lines.lineOf_eq_lineAt]⟩

-- ========================================================== settings

/-- Two computations in a row, each on a whole list, are both at once on it. -/
theorem mapM_of_mapM_ok {ε ε' ε'' α β γ : Type} {f : α → Except ε β}
    {g : β → Except ε' γ} {h : α → Except ε'' γ}
    (hstep : ∀ x y z, f x = .ok y → g y = .ok z → h x = .ok z) (xs : List α) :
    ∀ ys zs, xs.mapM f = .ok ys → ys.mapM g = .ok zs → xs.mapM h = .ok zs := by
  induction xs with
  | nil =>
      intro ys zs hf hg
      rw [List.mapM_nil] at hf
      cases hf
      rw [List.mapM_nil] at hg
      cases hg
      rfl
  | cons x xs ih =>
      intro ys zs hf hg
      rw [List.mapM_cons, bind_eq_ok] at hf
      obtain ⟨y, hy, hf⟩ := hf
      obtain ⟨ys', hys, hf⟩ := bind_eq_ok.1 hf
      cases hf
      rw [List.mapM_cons, bind_eq_ok] at hg
      obtain ⟨z, hz, hg⟩ := hg
      obtain ⟨zs', hzs, hg⟩ := bind_eq_ok.1 hg
      cases hg
      rw [List.mapM_cons, hstep x y z hy hz, ih ys' zs' hys hzs]
      rfl

/-- A marker that passes the check is the same marker without it. -/
theorem uncheckedMarker_of_check {rules : Rules} {placement : Placement}
    {value : Value} {text : String} {marker : DocMarker}
    (hcheck : checkMarker placement value = .ok text)
    (hmarker : rules.docMarker placement text = .ok marker) :
    uncheckedMarker rules placement value = .ok marker := by
  unfold checkMarker at hcheck
  split at hcheck
  · split at hcheck
    · cases hcheck
      rw [uncheckedMarker, hmarker]
      rfl
    · cases hcheck
  · cases hcheck

/-- Checked markers are set to the same with and without the check. -/
theorem uncheckedMarkers_of_check {rules : Rules} {placement : Placement}
    {value : Value} {given : Option (List String)} {markers : List DocMarker}
    (hcheck : checkMarkers placement value = .ok given)
    (hmarkers : rules.markersFor placement given = .ok markers) :
    uncheckedMarkers rules placement value = .ok markers := by
  unfold checkMarkers at hcheck
  split at hcheck
  · cases hcheck
    cases hmarkers
    rfl
  · next hvalue =>
    obtain ⟨values, hvalues, hcheck⟩ := bind_eq_ok.1 hcheck
    obtain ⟨texts, htexts, hcheck⟩ := bind_eq_ok.1 hcheck
    cases hcheck
    unfold uncheckedMarkers
    split
    · exact absurd rfl hvalue
    · rw [hvalues]
      exact mapM_of_mapM_ok (fun _ _ _ => uncheckedMarker_of_check) values texts
        markers htexts hmarkers

/-- A placement has no markers set exactly when the setting is absent. -/
theorem checkMarkers_none_iff {placement : Placement} {value : Value}
    {given : Option (List String)}
    (h : checkMarkers placement value = .ok given) :
    given = none ↔ value = .null := by
  unfold checkMarkers at h
  split at h
  · cases h
    exact ⟨fun _ => rfl, fun _ => rfl⟩
  · next hvalue =>
    obtain ⟨values, -, h⟩ := bind_eq_ok.1 h
    obtain ⟨texts, -, h⟩ := bind_eq_ok.1 h
    cases h
    exact ⟨fun hnone => absurd hnone (by simp),
      fun hnull => absurd hnull hvalue⟩

/-- Checked settings, applied as they were written, are the options that the
check made of them. -/
theorem applyTo_of_check {settings : ScanSettings} {options : ScanOptions}
    {rules applied : Rules} (hcheck : settings.check = .ok options)
    (h : rules.withOptions options = .ok applied) :
    settings.applyTo rules = .ok applied := by
  obtain ⟨-, -, -, -, -, hinclude, houter, hinner⟩ := check_parts hcheck
  obtain ⟨marked, hmarked, rfl⟩ := withOptions_parts h
  have houterNone := checkMarkers_none_iff houter
  have hinnerNone := checkMarkers_none_iff hinner
  rw [hinclude]
  unfold Rules.withMarkers at hmarked
  unfold ScanSettings.applyTo
  split at hmarked
  · next hnone =>
    simp only [Bool.and_eq_true, Option.isNone_iff_eq_none] at hnone
    cases hmarked
    rw [houterNone.1 hnone.1, hinnerNone.1 hnone.2]
    rfl
  · next hsome =>
    obtain ⟨outer, ho, hmarked⟩ := bind_eq_ok.1 hmarked
    obtain ⟨inner, hi, hmarked⟩ := bind_eq_ok.1 hmarked
    cases hmarked
    split
    · next hon hin =>
      rw [houterNone.2 hon, hinnerNone.2 hin] at hsome
      exact absurd rfl hsome
    · rw [uncheckedMarkers_of_check houter ho,
        uncheckedMarkers_of_check hinner hi]
      rfl

-- ========================================================== comments

/-- The open run has the line of its first line comment. -/
def RunOnLine (lines : Text.Lines) (run : Option CommentRun) : Prop :=
  ∀ current, run = some current → current.line = lines.lineOf current.start

/-- Such a run gives a comment on the line where it starts. -/
theorem RunOnLine.finish {lines : Text.Lines} {run : Option CommentRun}
    (h : RunOnLine lines run) (rules : Rules) :
    ∀ c ∈ rules.finishRun run, c.line = lines.lineOf c.start := by
  intro c hc
  cases run with
  | none => cases hc
  | some current =>
      rw [List.mem_singleton.1 hc]
      exact h current rfl

/-- A span finishes comments on their lines, and leaves a run on its own. -/
theorem readSpan_lines (rules : Rules) (lines : Text.Lines)
    {state : CommentState} (h : RunOnLine lines state.run) (span : Span) :
    (∀ c ∈ (rules.readSpan lines state span).1, c.line = lines.lineOf c.start)
      ∧ RunOnLine lines (rules.readSpan lines state span).2.run := by
  have hmapped : ∀ f : CommentRun → CommentRun,
      (∀ run, (f run).line = run.line ∧ (f run).start = run.start) →
      RunOnLine lines (state.run.map f) := by
    intro f hf run hrun
    obtain ⟨before, hbefore, rfl⟩ := Option.map_eq_some_iff.1 hrun
    rw [(hf before).1, (hf before).2]
    exact h before hbefore
  have hnone : RunOnLine lines none := fun _ hrun => absurd hrun (by simp)
  by_cases hkind : ∃ kind, span.kind = .comment kind
  · obtain ⟨kind, hkind⟩ := hkind
    rw [readSpan_comment rules lines state hkind]
    unfold Rules.readComment Rules.readVerdict
    simp only
    split
    · next marker _ =>
      split
      · refine ⟨fun c hc => absurd hc (by simp),
          hmapped _ fun run => ⟨rfl, rfl⟩⟩
      · refine ⟨h.finish rules, fun run hrun => ?_⟩
        obtain rfl := Option.some.inj hrun
        rfl
    · refine ⟨fun c hc => ?_, hnone⟩
      rcases List.mem_append.1 hc with hc | hc
      · exact h.finish rules c hc
      · rw [List.mem_singleton.1 hc]
        rfl
  · rw [readSpan_code rules lines state fun kind hspan => hkind ⟨kind, hspan⟩]
    unfold Rules.readCode
    simp only
    split
    · exact ⟨fun c hc => absurd hc (by simp), hmapped _ fun run => ⟨rfl, rfl⟩⟩
    · exact ⟨h.finish rules, hnone⟩

/-- Every comment is on the line where it starts. The invariant is that the run
so far is. -/
theorem commentsFrom_lines (rules : Rules) (lines : Text.Lines)
    (spans : List Span) :
    ∀ state : CommentState, RunOnLine lines state.run →
      ∀ c ∈ rules.commentsFrom lines state.codeLine state.run spans,
        c.line = lines.lineOf c.start := by
  induction spans with
  | nil =>
      intro state h c hc
      exact h.finish rules c hc
  | cons span spans ih =>
      intro state h c hc
      obtain ⟨hfinished, hopen⟩ := readSpan_lines rules lines h span
      rw [commentsFrom_cons] at hc
      rcases List.mem_append.1 hc with hc | hc
      · exact hfinished c hc
      · exact ih _ hopen c hc

/-- The comments of a text lie in it, each on the line of its start. -/
theorem commentsOf_located (rules : Rules) (text : List Char) :
    ∀ c ∈ rules.commentsOf text,
      c.start < c.stop ∧ c.stop ≤ text.length
        ∧ c.line = Text.lineAt text c.start := by
  intro c hc
  obtain ⟨hlt, hstop⟩ := (commentsOf_ordered rules text).1 c hc
  refine ⟨hlt, hstop, ?_⟩
  rw [← Text.Lines.lineOf_eq_lineAt]
  exact commentsFrom_lines rules (.ofText text) (rules.spans text) {}
    (fun _ hrun => absurd hrun (by simp)) c hc

-- ============================================================ scopes

/-- Every open scope starts where a token with the property does. -/
def OpenedAt (P : Token → Prop) (t : Tracker) : Prop :=
  ∀ level ∈ t.levels, StartsToken P level.opening.frame.start

/-- A scope opens at its brace, or where the declaration in front starts. -/
theorem Tracker.opened_start {rules : Rules} {lines : Text.Lines} {t : Tracker}
    {token : Token} {P : Token → Prop} (htoken : P token)
    (hheader : ∀ other ∈ t.header, P other) :
    StartsToken P (t.opened rules lines token).frame.start := by
  unfold opened
  cases hdeclared : t.declared? rules lines .body with
  | none => exact ⟨token, htoken, rfl⟩
  | some site =>
      obtain ⟨other, hmem, hstart⟩ := declared?_start hdeclared
      exact ⟨other, hheader other hmem, hstart⟩

/-- Open scopes start at tokens as long as those that are read have the
property. -/
theorem Tracker.FeedStep.openedAt {rules : Rules} {lines : Text.Lines}
    {t : Tracker} {token : Token} {fed : Tracked}
    (hstep : FeedStep rules lines t token fed) {P : Token → Prop}
    (htoken : P token) (hholds : HoldsAbove P [] t) (h : OpenedAt P t) :
    OpenedAt P fed.tracker := by
  intro level hmem
  cases hstep with
  | directive | stray | ended => exact h level hmem
  | literal | code =>
      simp only [append_levels] at hmem
      exact h level hmem
  | opening =>
      rcases List.mem_cons.1 hmem with rfl | hmem
      · exact opened_start htoken hholds.1
      · exact h level hmem
  | resume _ closed levels hl | closing _ closed levels hl =>
      apply h level
      rw [hl]
      exact List.mem_cons_of_mem closed hmem

/-- The scopes that a stream leaves open start at its tokens. -/
theorem readAll_openedAt (reading : Reading) {P : Token → Prop}
    (items : List Item) (hitems : ∀ token, .token token ∈ items → P token) :
    OpenedAt P (({} : Tracker).readAll reading items) := by
  -- where a scope opens depends on the header, so both are carried along
  have hkept : HoldsAbove P [] (({} : Tracker).readAll reading items)
      ∧ OpenedAt P (({} : Tracker).readAll reading items) := by
    refine readAll_keeps reading
      (P := fun t => HoldsAbove P [] t ∧ OpenedAt P t) items
      (fun t ht => ⟨ht.1.cleared, ht.2⟩) {} (fun token hmem t ht => ?_)
      ⟨HoldsAbove.empty P, fun level hl => absurd hl (by simp)⟩
    have htoken := hitems token hmem
    have hstep :=
      Tracker.feedToken_step reading.rules reading.scopeLines t token
    exact ⟨hstep.holdsAbove htoken List.nil_suffix ht.1,
      hstep.openedAt htoken ht.1 ht.2⟩
  exact hkept.2

theorem flush_levels (rules : Rules) (lines : Text.Lines) (t : Tracker) :
    (t.flush rules lines).1.levels = t.levels := by
  rcases Tracker.flush_cases rules lines t with hf | hf <;> rw [hf]

/-- A brace that closes nothing is one of the braces. -/
theorem mem_strayBraces {braces : List (Brace × Nat)} :
    ∀ {count offset : Nat}, offset ∈ strayBraces count braces →
      ∃ brace ∈ braces, brace.2 = offset := by
  induction braces with
  | nil =>
      intro count offset h
      cases h
  | cons first braces ih =>
      intro count offset h
      have hlater : ∀ {count}, offset ∈ strayBraces count braces →
          ∃ brace ∈ first :: braces, brace.2 = offset := by
        intro count h
        obtain ⟨brace, hmem, hoffset⟩ := ih h
        exact ⟨brace, List.mem_cons_of_mem _ hmem, hoffset⟩
      obtain ⟨kind, start⟩ := first
      cases kind with
      | opening => exact hlater h
      | closing =>
          rw [strayBraces] at h
          split at h
          · rcases List.mem_cons.1 h with rfl | h
            · exact ⟨_, List.mem_cons_self, rfl⟩
            · exact hlater h
          · exact hlater h

/-- What is reported of the scopes left open lies where one of them starts. -/
theorem Tracker.close_located {lines : Text.Lines} {textEnd : Int} {t : Tracker}
    {d : Diagnostic} (h : d ∈ (t.close lines textEnd).tracker.diagnostics) :
    d ∈ t.diagnostics
      ∨ (∃ level ∈ t.levels, level.opening.frame.start = d.offset)
        ∧ d.line = lines.lineOf d.offset := by
  unfold close unclosed at h
  cases hlevels : t.levels with
  | nil =>
      rw [hlevels] at h
      exact .inl h
  | cons level levels =>
      rw [hlevels] at h
      rcases List.mem_append.1 h with h | h
      · exact .inl h
      · rw [List.mem_singleton.1 h]
        exact .inr ⟨⟨level, List.mem_cons_self, rfl⟩, rfl⟩

/-- What a run reports of scopes lies at the start of a token of its stream, on
the line of that token. -/
theorem run_diagnostics_located (reading : Reading) (items : List Item) :
    ∀ d ∈ (Matcher.run reading {} items).matcher.tracker.diagnostics,
      StartsToken (fun token => .token token ∈ items) d.offset
        ∧ d.line = reading.scopeLines.lineOf d.offset := by
  intro d hd
  rw [run_tracker] at hd
  rcases Tracker.close_located hd with hd | ⟨⟨level, hlevel, hstart⟩, hline⟩
  · -- a brace that closes nothing
    have hcounts := (Tracker.readAll_counts reading items {}).trans
      (Tracker.flush_counts reading.rules reading.scopeLines _)
    rw [hcounts.diagnostics, List.append_nil] at hd
    obtain ⟨offset, hoffset, rfl⟩ := List.mem_map.1 hd
    obtain ⟨brace, hbrace, hat⟩ := mem_strayBraces hoffset
    obtain ⟨item, hitem, hsome⟩ := List.mem_filterMap.1 hbrace
    cases item with
    | comment c => cases hsome
    | token token =>
        exact ⟨⟨token, hitem, (Token.brace?_offset hsome).symm.trans hat⟩, rfl⟩
  · -- the innermost scope left open
    rw [flush_levels] at hlevel
    rw [← hstart] at hline ⊢
    exact ⟨readAll_openedAt reading items (fun _ hmem => hmem) level hlevel,
      hline⟩

-- ========================================================== the scan

/-- The comment of a record and what it documents lie in the text, on their
lines. -/
structure Record.LiesIn (text : List Char) (record : Record) : Prop where
  inside : record.comment.start < record.comment.stop
    ∧ record.comment.stop ≤ text.length
  line : record.comment.line = Text.lineAt text record.comment.start
  target : ∀ site, record.target = some site →
    Text.Locates text site.start site.line

/-- A comment or literal that is not closed is reported where it starts. -/
theorem Span.diagnostics_located (rules : Rules) (text : List Char) :
    ∀ d ∈ Span.diagnostics (.ofText text) (rules.spans text),
      Text.Locates text d.offset d.line := by
  intro d hd
  obtain ⟨span, hspan, hsome⟩ := List.mem_filterMap.1 hd
  obtain ⟨what, -, rfl⟩ := Option.map_eq_some_iff.1 hsome
  obtain ⟨-, hlt, hstop⟩ := (spans_tiles rules text).mem hspan
  rw [spans_end] at hstop
  exact .of_lineOf (by show span.start < text.length; omega) rfl

section Index

variable {rules : Rules} (hplain : rules.isPlain = true) (options : ScanOptions)
  (text : List Char)
include hplain

/-- The tokens of a text's stream start in the text. -/
theorem items_inside {offset : Nat}
    (h : StartsToken (fun token => .token token ∈ rules.items text) offset) :
    offset < text.length := by
  obtain ⟨token, hmem, rfl⟩ := h
  exact (tokens_bounds hplain text token (mem_mergeItems_token.1 hmem)).1

/-- Every record lies in the text. -/
theorem index_records_located :
    ∀ record ∈ (rules.index options text).result.records,
      record.LiesIn text := by
  intro record hmem
  rw [index_records] at hmem
  have hdoc : record.comment ∈ (rules.commentsOf text).filter (·.isDoc) := by
    rw [← items_docs, ← run_comments (rules.reading options text) {}]
    exact List.mem_map_of_mem hmem
  obtain ⟨hlt, hstop, hline⟩ :=
    commentsOf_located rules text _ (List.mem_filter.1 hdoc).1
  refine ⟨⟨hlt, hstop⟩, hline, fun site hsite => ?_⟩
  obtain ⟨around, hdeclared⟩ := run_declared hmem hsite
  obtain ⟨hstart, hsiteLine⟩ := declarations_start hdeclared
  exact .of_lineOf (items_inside hplain text hstart) hsiteLine

theorem index_diagnostics_located :
    ∀ d ∈ (rules.index options text).result.diagnostics,
      Text.Locates text d.offset d.line := by
  intro d hd
  rw [index_diagnostics] at hd
  rcases List.mem_append.1 hd with hd | hd
  · exact Span.diagnostics_located rules text d hd
  · obtain ⟨hstart, hline⟩ :=
      run_diagnostics_located (rules.reading options text) _ d hd
    exact .of_lineOf (items_inside hplain text hstart) hline

end Index

/-- Every text is scanned by every dialect with settings that pass their check.
No opener is empty, no comment goes without its verdict, and every header can
be read by position without an access out of range. All that is found lies in
the text, on its line. -/
theorem findings_lie_in_text (dialect : Dialect) (settings : ScanSettings)
    (options : ScanOptions) (hcheck : settings.check = .ok options)
    (text : List Char) :
    ∃ rules result, settings.applyTo dialect.rules = .ok rules
      ∧ dialect.rules.withOptions options = .ok rules
      ∧ rules.isUsable = true
      ∧ rules.judges text (rules.commentsOf text) = true
      ∧ rules.ReadsByPosition
      ∧ dialect.rules.scan options text = .ok result
      ∧ (∀ record ∈ result.records, record.LiesIn text)
      ∧ ∀ d ∈ result.diagnostics, Text.Locates text d.offset d.line := by
  obtain ⟨rules, hrules, hscan⟩ := dialect.scan_index hcheck text
  have hplain := dialect.plain hrules
  exact ⟨rules, _, applyTo_of_check hcheck hrules, hrules,
    dialect.usable hrules, dialect.judges hrules text _,
    dialect.readsByPosition hrules, hscan,
    index_records_located hplain options text,
    index_diagnostics_located hplain options text⟩

/-- Settings with a marker of their own. -/
def markedSettings : ScanSettings := { outerMarkers := .list [.str "//@"] }

/-- What the check makes of them. -/
def markedOptions : ScanOptions := { outerMarkers := some ["//@"] }

/-- C with that marker in place of its own. -/
def markedRules : Rules :=
  { Dialect.c.rules with markers :=
      [{ opener := ⟨['/', '/', '@']⟩, kind := .comment .line }] }

/-- A comment with the marker, a declaration below it and a scope that stays
open. -/
def openBelowComment : List Char := "\n//@a\nf()\x7b".toList

/-- The comment, its declaration and the open scope are found on their lines. -/
theorem findings_lie_in_text_left_open :
    markedSettings.check = .ok markedOptions
      ∧ ∃ rules result record site d,
        markedSettings.applyTo Dialect.c.rules = .ok rules
          ∧ rules.ReadsByPosition
          ∧ Dialect.c.rules.scan markedOptions openBelowComment = .ok result
          ∧ record ∈ result.records ∧ record.target = some site
          ∧ d ∈ result.diagnostics
          ∧ record.LiesIn openBelowComment ∧ record.comment.line = 2
          ∧ Text.Locates openBelowComment site.start 3
          ∧ Text.Locates openBelowComment d.offset 3 := by
  have hcheck : markedSettings.check = .ok markedOptions := rfl
  have hmarked : Dialect.c.rules.withOptions markedOptions
      = .ok markedRules := by
    with_unfolding_all rfl
  obtain ⟨rules, result, happlied, -, -, -, hreads, hscan, hrecords,
      hdiagnostics⟩ :=
    findings_lie_in_text .c _ _ hcheck openBelowComment
  have hitems :=
    Rules.items_eq (show markedRules.orderedLiterals = markedRules.literals from
    Dialect.c.orderedLiterals_eq) openBelowComment
  have hlines : result.records.map (fun record =>
      (record.comment.line, record.target.map (·.line))) = [(2, some 3)] := by
    rw [scan_records hmarked hscan, hitems]
    decide +kernel
  have hreported : result.diagnostics.map (·.line) = [3] := by
    have hindex : Dialect.c.rules.scan markedOptions openBelowComment
        = .ok (markedRules.index markedOptions openBelowComment).result := by
      rw [Rules.scan, hmarked]
      rfl
    rw [← Except.ok.inj (hindex.symm.trans hscan), index_diagnostics, hitems,
      markedRules, Rules.spans_markers, Dialect.spans_eq]
    decide +kernel
  obtain ⟨record, hrecord, hplace⟩ :=
    List.mem_map.1 (hlines.symm ▸ List.mem_singleton_self _)
  obtain ⟨d, hd, hdline⟩ :=
    List.mem_map.1 (hreported.symm ▸ List.mem_singleton_self _)
  obtain ⟨hline, htarget⟩ := Prod.mk.inj hplace
  obtain ⟨site, hsite, hsiteLine⟩ := Option.map_eq_some_iff.1 htarget
  exact ⟨hcheck, rules, result, record, site, d, happlied, hreads, hscan,
    hrecord, hsite, hd, hrecords record hrecord, hline,
    hsiteLine ▸ (hrecords record hrecord).target site hsite,
    hdline ▸ hdiagnostics d hd⟩

end Marginalia
