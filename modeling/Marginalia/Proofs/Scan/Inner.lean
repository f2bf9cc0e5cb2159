/-
Scans with inner comments and without.

Switching inner comments off drops the inner markers, which all stand behind
the outer ones (`Dialect.outerFirst`), be they a dialect's own or given by the
settings. The comments then change as `Demoted` says, the tokens stay, and
where no statement ends at a line break the matcher's run is the same without
its inner records.
-/
import Marginalia.Proofs.Association.Demoted
import Marginalia.Proofs.Association.Markers
import Marginalia.Proofs.Dialect.Plain

namespace Marginalia

-- ======================================================= the markers

/-- The markers for one placement have it. -/
theorem markersFor_placement {rules : Rules} {placement : Placement}
    {given : Option (List String)} {ms : List DocMarker}
    (h : rules.markersFor placement given = .ok ms) :
    ∀ m ∈ ms, m.placement = placement := by
  intro m hm
  cases given with
  | none =>
      obtain rfl := Except.ok.inj h
      exact beq_iff_eq.1 (List.mem_filter.1 hm).2
  | some markers =>
      obtain ⟨marker, -, hmarker⟩ := mem_of_mapM_ok markers ms h m hm
      unfold Rules.docMarker at hmarker
      split at hmarker
      · rw [← Except.ok.inj hmarker]
      · cases hmarker

/-- Whatever markers are given, the outer ones come first. -/
theorem Dialect.outerFirst (dialect : Dialect)
    {outer inner : Option (List String)} {marked : Rules}
    (h : dialect.rules.withMarkers outer inner = .ok marked) :
    marked.OuterFirst := by
  unfold Rules.withMarkers at h
  split at h
  · obtain rfl := Except.ok.inj h
    have hown : ∀ placement, dialect.rules.markersFor placement none
        = .ok (dialect.rules.markers.filter (·.placement == placement)) :=
          fun _ => rfl
    refine ⟨dialect.rules.markers.filter (·.placement == .outer),
      dialect.rules.markers.filter (·.placement == .inner), ?_,
      markersFor_placement (hown .outer), markersFor_placement (hown .inner)⟩
    cases dialect <;> decide
  · obtain ⟨outerMarkers, houter, h⟩ := bind_eq_ok.1 h
    obtain ⟨innerMarkers, hinner, h⟩ := bind_eq_ok.1 h
    obtain rfl := Except.ok.inj h
    exact ⟨outerMarkers, innerMarkers, rfl, markersFor_placement houter,
      markersFor_placement hinner⟩

-- ========================================================== the scan

/-- Without the inner markers, inner doc comments give way to plain lines in
the stream of a text. -/
theorem items_demoted {rules : Rules} {markers : List DocMarker}
    (hplain : rules.isPlain = true) (hdemotes : rules.Demotes markers)
    (text : List Char) :
    DemotedItems text (rules.items text)
      ({ rules with markers }.items text) := by
  have hitems : { rules with markers }.items text
      = mergeItems
        ({ rules with markers }.comments (.ofText text) (rules.spans text))
        (rules.tokens text (rules.spans text)) := by
    unfold Rules.items
    rw [Rules.spans_markers]
    rfl
  rw [hitems]
  exact (comments_demoted hdemotes (.ofText text) text).merge _
    (tokens_apart hplain text)

/-- Dropping the inner markers hides the inner records of an index. -/
theorem index_hides_inner {rules : Rules} (hplain : rules.isPlain = true)
    (houter : rules.OuterFirst) (hbreaks : rules.newlineTerminates = false)
    (options : ScanOptions) (text : List Char) :
    ((rules.withInnerComments false).index options text).result.records
        = (rules.index options text).result.records.filter (·.isOuter)
      ∧ ((rules.withInnerComments false).index options text).result.diagnostics
        = (rules.index options text).result.diagnostics := by
  have hrun :
      (Matcher.run (rules.reading options text) {} (rules.items text)).Hides
      Comment.isOuter
        (Matcher.run ((rules.withInnerComments false).reading options text) {}
        ((rules.withInnerComments false).items text)) := by
    have hlines : (rules.reading options text).rules.newlineTerminates
        = false := hbreaks
    have hitems := items_demoted hplain (verdict_demoted houter) text
    have hmarkers : Matcher.run
        ((rules.withInnerComments false).reading options text) {}
        ((rules.withInnerComments false).items text)
        = Matcher.run (rules.reading options text) {}
          ((rules.withInnerComments false).items text) :=
      run_markers _ (rules.reading options text) _ {}
    rw [hmarkers]
    exact run_demoted hlines hitems {} {} ⟨rfl, rfl, by simp, rfl⟩ rfl
  rw [index_records, index_records, index_diagnostics, index_diagnostics,
    hrun.records, hrun.matcher.tracker]
  refine ⟨rfl, ?_⟩
  have hspans : (rules.withInnerComments false).spans text = rules.spans text :=
    Rules.spans_markers ..
  rw [hspans]

/-- The switch for inner comments is the only option that it sets. -/
theorem check_withInner {settings : ScanSettings} {options : ScanOptions}
    (h : settings.check = .ok options) (included : Value) :
    { settings with includeInnerComments := included }.check
      = .ok { options with includeInner := included.isTruthy } := by
  obtain ⟨values, hvalues, hpatterns, hwindow, hwritten, -, houter, hinner⟩ :=
    check_parts h
  refine check_eq_ok.2 ⟨?_, (check_eq_ok.1 h).2⟩
  refine bind_eq_ok.2 ⟨_, hwindow,
    bind_eq_ok.2 ⟨_, hvalues,
      bind_eq_ok.2 ⟨_, hpatterns,
        bind_eq_ok.2 ⟨_, houter, bind_eq_ok.2 ⟨_, hinner, ?_⟩⟩⟩⟩⟩
  rw [hwritten]
  rfl

/-- Where no statement ends at a line break, a scan without inner comments has
the outer records of the scan with them, and the same diagnostics. -/
theorem inner_switch_hides_only_inner (dialect : Dialect)
    (hbreaks : dialect.rules.newlineTerminates = false)
    (settings : ScanSettings) (options : ScanOptions)
    (hcheck : settings.check = .ok options) (text : List Char) :
    ∃ on off shown hidden,
      { settings with includeInnerComments := .bool true }.check = .ok on
        ∧ { settings with includeInnerComments := .bool false }.check = .ok off
        ∧ dialect.rules.scan on text = .ok shown
        ∧ dialect.rules.scan off text = .ok hidden
        ∧ hidden.records = shown.records.filter (·.isOuter)
        ∧ hidden.diagnostics = shown.diagnostics := by
  have hon := check_withInner hcheck (.bool true)
  have hoff := check_withInner hcheck (.bool false)
  obtain ⟨rules, hrules, hshown⟩ := dialect.scan_index hon text
  obtain ⟨rules', hrules', hhidden⟩ := dialect.scan_index hoff text
  refine ⟨_, _, _, _, hon, hoff, hshown, hhidden, ?_⟩
  -- with inner comments on, the rules are those that have the markers set
  obtain ⟨marked, hmarked, hmarks⟩ := withOptions_parts hrules
  obtain ⟨marked', hmarked', rfl⟩ := withOptions_parts hrules'
  obtain rfl : rules = marked := hmarks
  obtain rfl : rules = marked' := Except.ok.inj (hmarked.symm.trans hmarked')
  obtain ⟨markers, hmarkers⟩ := withOptions_eq hrules
  have hlines : rules.newlineTerminates = false := by
    rw [hmarkers]
    exact hbreaks
  exact index_hides_inner (dialect.plain hrules) (dialect.outerFirst hmarked)
    hlines options text

/-- Two inner lines under an outer comment. -/
def innerUnderOuter : List Char := "///a\n//!b\n//!c\nfn f()\x7b\x7d".toList

/-- Two inner lines under an outer comment are one record, which goes away with
the inner comments; the outer comment is bound past them either way. -/
theorem inner_lines_hide_under_outer :
    Dialect.rust.rules.newlineTerminates = false
      ∧ ({} : ScanSettings).check = .ok {}
      ∧ ({ includeInnerComments := .bool false } : ScanSettings).check
        = .ok { includeInner := false }
      ∧ ∃ shown hidden,
        Dialect.rust.rules.scan {} innerUnderOuter = .ok shown
          ∧ Dialect.rust.rules.scan { includeInner := false }
            innerUnderOuter = .ok hidden
          ∧ shown.records.map
            (fun r => (r.comment.placement, r.comment.text, r.isOrphan))
            = [(.outer, "a", false), (.inner, "b\nc", true)]
          ∧ hidden.records.map
            (fun r => (r.comment.placement, r.comment.text, r.isOrphan))
            = [(.outer, "a", false)]
          ∧ hidden.diagnostics = shown.diagnostics := by
  have hbreaks : Dialect.rust.rules.newlineTerminates = false := rfl
  have hcheck : ({} : ScanSettings).check = .ok {} := rfl
  obtain ⟨on, off, shown, hidden, hon, hoff, hshown, hhidden, hrecords,
      hdiagnostics⟩ :=
    inner_switch_hides_only_inner .rust hbreaks {} {} hcheck
      innerUnderOuter
  have happlied : Dialect.rust.rules.withOptions {} = .ok Dialect.rust.rules :=
    rfl
  obtain rfl : {} = on := Except.ok.inj hon
  obtain rfl : { includeInner := false } = off := Except.ok.inj hoff
  have hread : shown.records.map
      (fun r => (r.comment.placement, r.comment.text, r.isOrphan))
      = [(.outer, "a", false), (.inner, "b\nc", true)] := by
    rw [scan_records happlied hshown, Dialect.items_eq]
    decide +kernel
  have hkept := congrArg (List.filter fun r => r.1 == Placement.outer) hread
  rw [List.filter_map] at hkept
  refine ⟨hbreaks, hcheck, hoff, shown, hidden, hshown, hhidden, hread, ?_,
    hdiagnostics⟩
  rw [hrecords]
  exact hkept

end Marginalia
