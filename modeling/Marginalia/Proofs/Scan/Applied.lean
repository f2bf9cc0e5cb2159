/-
Rules with checked options applied.

Settings that pass their check have only markers that start like a comment,
and every dialect's comments start that way, so applying them never fails
(`withOptions_ok`) and changes nothing but the markers (`withOptions_eq`), by
which no text is cut (`spans_markers`). A scan by a dialect's table is then a
run of the matcher over the items of the text (`scan_ok`).
-/
import Marginalia.Association.Window
import Marginalia.Proofs.Span.Tiling
import Marginalia.Scan.Basic
import Marginalia.Settings.Check

namespace Marginalia

-- =========================================================== results

/-- A computation that succeeds did so at each step. -/
theorem bind_eq_ok {ε α β : Type} {x : Except ε α} {f : α → Except ε β}
    {b : β} :
    x >>= f = .ok b ↔ ∃ a, x = .ok a ∧ f a = .ok b := by
  cases x with
  | error e =>
      constructor
      · intro h; cases h
      · rintro ⟨a, ha, -⟩; cases ha
  | ok a =>
      constructor
      · intro h; exact ⟨a, rfl, h⟩
      · rintro ⟨a', ha, h⟩
        cases ha
        exact h

/-- What a list of computations returns was returned by one of them. -/
theorem mem_of_mapM_ok {ε α β : Type} {f : α → Except ε β} (xs : List α) :
    ∀ ys, xs.mapM f = .ok ys → ∀ y ∈ ys, ∃ x ∈ xs, f x = .ok y := by
  induction xs with
  | nil =>
      intro ys h y hy
      rw [List.mapM_nil] at h
      cases h
      cases hy
  | cons x xs ih =>
      intro ys h y hy
      rw [List.mapM_cons, bind_eq_ok] at h
      obtain ⟨z, hz, h⟩ := h
      rw [bind_eq_ok] at h
      obtain ⟨zs, hzs, h⟩ := h
      cases h
      rcases List.mem_cons.1 hy with rfl | hy
      · exact ⟨x, List.mem_cons_self, hz⟩
      · obtain ⟨x', hx', hf⟩ := ih zs hzs y hy
        exact ⟨x', List.mem_cons_of_mem x hx', hf⟩

/-- A list of computations that all succeed succeeds. -/
theorem mapM_ok {ε α β : Type} {f : α → Except ε β} (xs : List α) :
    (∀ x ∈ xs, ∃ y, f x = .ok y) → ∃ ys, xs.mapM f = .ok ys := by
  induction xs with
  | nil => intro _; exact ⟨[], rfl⟩
  | cons x xs ih =>
      intro h
      obtain ⟨y, hy⟩ := h x List.mem_cons_self
      obtain ⟨ys, hys⟩ := ih fun x' hx' => h x' (List.mem_cons_of_mem x hx')
      refine ⟨y :: ys, ?_⟩
      rw [List.mapM_cons, hy, hys]
      rfl

-- =========================================================== markers

/-- The marker starts like a comment. -/
def StartsComment (marker : String) : Prop :=
  ['/', '/'].isPrefixOf marker.toList = true
    ∨ ['/', '*'].isPrefixOf marker.toList = true

theorem checkMarker_starts {placement : Placement} {value : Value}
    {marker : String} (h : checkMarker placement value = .ok marker) :
    StartsComment marker := by
  unfold checkMarker at h
  split at h
  · split at h
    · next text hcond =>
      injection h with h
      subst h
      simpa only [StartsComment, Bool.or_eq_true] using hcond
    · cases h
  · cases h

theorem checkMarkers_start {placement : Placement} {value : Value}
    {markers : List String}
    (h : checkMarkers placement value = .ok (some markers)) :
    ∀ marker ∈ markers, StartsComment marker := by
  unfold checkMarkers at h
  split at h
  · cases h
  · rw [bind_eq_ok] at h
    obtain ⟨values, -, h⟩ := h
    rw [bind_eq_ok] at h
    obtain ⟨checked, hchecked, h⟩ := h
    cases h
    intro marker hmarker
    obtain ⟨v, -, hv⟩ := mem_of_mapM_ok values markers hchecked marker hmarker
    exact checkMarker_starts hv

/-- Checked settings are those that are valid and search no bytes. -/
theorem check_eq_ok {settings : ScanSettings} {options : ScanOptions} :
    settings.check = .ok options
      ↔ settings.validated = .ok options ∧ settings.searchesBytes = false := by
  rw [ScanSettings.check, bind_eq_ok]
  cases settings.searchesBytes with
  | true => exact iff_of_false (fun ⟨_, _, h⟩ => by cases h) (by simp)
  | false =>
      constructor
      · rintro ⟨_, h, hsame⟩
        cases hsame
        exact ⟨h, rfl⟩
      · exact fun h => ⟨options, h.1, rfl⟩

/-- What the options of checked settings come from. -/
theorem check_parts {settings : ScanSettings} {options : ScanOptions}
    (h : settings.check = .ok options) :
    ∃ values, itemsOf settings.ignoreLinePatterns = .ok values
      ∧ values.mapM checkPattern = .ok options.ignorePatterns
      ∧ checkWindow settings.windowMaxTokens = .ok options.window
      ∧ options.writtenWindow = settings.windowMaxTokens.plain
      ∧ options.includeInner = settings.includeInnerComments.isTruthy
      ∧ checkMarkers .outer settings.outerMarkers = .ok options.outerMarkers
      ∧ checkMarkers .inner settings.innerMarkers
        = .ok options.innerMarkers := by
  have h := (check_eq_ok.1 h).1
  unfold ScanSettings.validated at h
  obtain ⟨window, hwindow, h⟩ := bind_eq_ok.1 h
  obtain ⟨values, hvalues, h⟩ := bind_eq_ok.1 h
  obtain ⟨patterns, hpatterns, h⟩ := bind_eq_ok.1 h
  obtain ⟨outer, houter, h⟩ := bind_eq_ok.1 h
  obtain ⟨inner, hinner, h⟩ := bind_eq_ok.1 h
  cases h
  exact ⟨values, hvalues, hpatterns, hwindow, rfl, rfl, houter, hinner⟩

/-- Checked settings have no marker that does not start like a comment. -/
theorem check_markers {settings : ScanSettings} {options : ScanOptions}
    (h : settings.check = .ok options) :
    (∀ markers, options.outerMarkers = some markers →
        ∀ marker ∈ markers, StartsComment marker)
      ∧ ∀ markers, options.innerMarkers = some markers →
        ∀ marker ∈ markers, StartsComment marker := by
  obtain ⟨-, -, -, -, -, -, houter, hinner⟩ := check_parts h
  constructor
  · intro markers hmarkers
    exact checkMarkers_start (houter.trans (congrArg _ hmarkers))
  · intro markers hmarkers
    exact checkMarkers_start (hinner.trans (congrArg _ hmarkers))

/-- Every dialect's comments start with two slashes or a slash and a star. -/
theorem Dialect.docMarker_ok (dialect : Dialect) (placement : Placement)
    {marker : String} (h : StartsComment marker) :
    ∃ m, dialect.rules.docMarker placement marker = .ok m := by
  have hopeners : dialect.rules.lineComment = ⟨['/', '/']⟩
      ∧ dialect.rules.blockOpener = ⟨['/', '*']⟩ := by
    cases dialect <;> exact ⟨rfl, rfl⟩
  unfold Rules.docMarker Rules.markerKind?
  rw [hopeners.1, hopeners.2]
  by_cases hblock : Delimiter.startsAt ⟨['/', '*']⟩ marker.toList = true
  · rw [if_pos hblock]
    exact ⟨_, rfl⟩
  · have hline : Delimiter.startsAt ⟨['/', '/']⟩ marker.toList = true :=
      h.resolve_right hblock
    rw [if_neg hblock, if_pos hline]
    exact ⟨_, rfl⟩

theorem Dialect.markersFor_ok (dialect : Dialect) (placement : Placement)
    {given : Option (List String)}
    (h : ∀ markers, given = some markers → ∀ marker ∈ markers,
      StartsComment marker) :
    ∃ ms, dialect.rules.markersFor placement given = .ok ms := by
  cases given with
  | none => exact ⟨_, rfl⟩
  | some markers =>
      exact mapM_ok markers fun marker hmarker =>
        dialect.docMarker_ok placement (h markers rfl marker hmarker)

-- ======================================================= application

/-- Checked options can be applied to every dialect. -/
theorem Dialect.withOptions_ok (dialect : Dialect) {settings : ScanSettings}
    {options : ScanOptions} (h : settings.check = .ok options) :
    ∃ rules, dialect.rules.withOptions options = .ok rules := by
  obtain ⟨houter, hinner⟩ := check_markers h
  have hmarked : ∃ rules,
      dialect.rules.withMarkers options.outerMarkers options.innerMarkers
        = .ok rules := by
    unfold Rules.withMarkers
    split
    · exact ⟨_, rfl⟩
    · obtain ⟨outer, ho⟩ := dialect.markersFor_ok .outer houter
      obtain ⟨inner, hi⟩ := dialect.markersFor_ok .inner hinner
      rw [ho, hi]
      exact ⟨_, rfl⟩
  obtain ⟨rules, hrules⟩ := hmarked
  unfold Rules.withOptions
  rw [hrules]
  exact ⟨_, rfl⟩

/-- Options set the markers and then switch inner comments. -/
theorem withOptions_parts {rules applied : Rules} {options : ScanOptions}
    (h : rules.withOptions options = .ok applied) :
    ∃ marked, rules.withMarkers options.outerMarkers options.innerMarkers
      = .ok marked
      ∧ applied = marked.withInnerComments options.includeInner := by
  unfold Rules.withOptions at h
  cases hmarked : rules.withMarkers options.outerMarkers
    options.innerMarkers with
  | error e => rw [hmarked] at h; cases h
  | ok marked =>
      rw [hmarked] at h
      exact ⟨marked, rfl, (Except.ok.inj h).symm⟩

/-- Options change the markers and nothing else. -/
theorem withOptions_eq {rules applied : Rules} {options : ScanOptions}
    (h : rules.withOptions options = .ok applied) :
    ∃ markers, applied = { rules with markers } := by
  obtain ⟨marked, hmarked, rfl⟩ := withOptions_parts h
  have hmarkers : ∃ markers, marked = { rules with markers } := by
    unfold Rules.withMarkers at hmarked
    split at hmarked
    · cases hmarked
      exact ⟨rules.markers, rfl⟩
    · obtain ⟨outer, -, hmarked⟩ := bind_eq_ok.1 hmarked
      obtain ⟨inner, -, hmarked⟩ := bind_eq_ok.1 hmarked
      cases hmarked
      exact ⟨outer ++ inner, rfl⟩
  obtain ⟨markers, rfl⟩ := hmarkers
  unfold Rules.withInnerComments
  split
  · exact ⟨markers, rfl⟩
  · exact ⟨_, rfl⟩

-- ========================================== what options leave alone

namespace Rules

variable (rules : Rules) (markers : List DocMarker)

theorem nestedLength?_markers (depth : Nat) (cs : List Char) :
    { rules with markers }.nestedLength? depth cs
      = rules.nestedLength? depth cs := by
  fun_induction Rules.nestedLength? rules depth cs with
  | case1 depth => rw [nestedLength?]
  | case2 c cs hcloses => rw [nestedLength?, if_pos hcloses]
  | case3 c cs hcloses d ih => rw [nestedLength?, if_pos hcloses, ← ih]
  | case4 depth c cs hcloses hopens ih =>
      rw [nestedLength?.eq_def, ← ih]
      simp only [if_neg hcloses, if_pos hopens]
  | case5 depth c cs hcloses hopens ih =>
      rw [nestedLength?.eq_def, ← ih]
      simp only [if_neg hcloses, if_neg hopens]

theorem lexemeAt?_markers (literals : List LiteralRule) (before : Option Char)
    (cs : List Char) :
    { rules with markers }.lexemeAt? literals before cs
      = rules.lexemeAt? literals before cs := by
  simp only [lexemeAt?, blockLexeme?, blockBodyLength?, nestedLength?_markers]

theorem spansFrom_markers (literals : List LiteralRule) (start : Nat)
    (gathered : List Char) (before : Option Char) (cs : List Char) :
    { rules with markers }.spansFrom literals start gathered before cs
      = rules.spansFrom literals start gathered before cs := by
  fun_induction Rules.spansFrom rules literals start gathered before cs with
  | case1 start gathered before => rw [spansFrom_nil]
  | case2 start gathered before c cs lexeme hlexeme chars offset ih =>
      rw [spansFrom_lexeme
        ((lexemeAt?_markers rules markers literals _ _).trans hlexeme), ih]
  | case3 start gathered before c cs hlexeme ih =>
      rw [spansFrom_code
        ((lexemeAt?_markers rules markers literals _ _).trans hlexeme), ih]

theorem spans_markers (text : List Char) :
    { rules with markers }.spans text = rules.spans text :=
  spansFrom_markers rules markers _ 0 [] none text

end Rules

/-- What the matcher goes by in a scan. -/
def Rules.reading (rules : Rules) (options : ScanOptions) (text : List Char) :
    Reading :=
  (rules.index options text).reading

/-- A checked window is the number of tokens it is as a value. -/
theorem window?_of_checkWindow {value : Value} {window : Nat}
    (h : checkWindow value = .ok window) (size : Nat) :
    value.window? size = some window := by
  unfold checkWindow at h
  split at h
  · next n hn =>
    split at h
    · cases h
    · cases h
      cases value with
      | float x => cases hn
      | _ => exact congrArg (Option.map Int.toNat) hn
  · cases h

/-- A matcher that is given the window of checked settings as it was written
runs as it does in a scan. -/
theorem runWithin_of_check {settings : ScanSettings} {options : ScanOptions}
    (h : settings.check = .ok options) (rules : Rules) (size : Nat)
    (text : List Char) (items : List Item) :
    Matcher.runWithin settings.windowMaxTokens size
      (rules.reading options text) items
      = .ok (Matcher.run (rules.reading options text) {} items) := by
  obtain ⟨-, -, -, hwindow, hwritten, -⟩ := check_parts h
  have hsame : (rules.reading options text).within settings.windowMaxTokens
      options.window
      = rules.reading options text := by
    rw [Reading.within, ← hwritten]
    rfl
  rw [Matcher.runWithin, window?_of_checkWindow hwindow]
  exact congrArg (fun reading => Except.ok (Matcher.run reading {} items)) hsame

/-- The records of a scan are those of one run of the matcher. -/
theorem index_records (rules : Rules) (options : ScanOptions)
    (text : List Char) :
    (rules.index options text).result.records
      = (Matcher.run (rules.reading options text) {}
        (rules.items text)).records := by
  simp [Index.result, Index.collect, Rules.index, Index.absorb, Index.exhaust,
    Rules.reading]

/-- The diagnostics of a scan are those of its spans and those of its scopes. -/
theorem index_diagnostics (rules : Rules) (options : ScanOptions)
    (text : List Char) :
    (rules.index options text).result.diagnostics
      = Span.diagnostics (.ofText text) (rules.spans text)
        ++ (Matcher.run (rules.reading options text) {}
          (rules.items text)).matcher.tracker.diagnostics := by
  simp [Index.result, Index.collect, Rules.index, Index.absorb, Index.exhaust,
    Rules.reading]

/-- Scanning by checked options always has a result, that of a fresh index. -/
theorem Dialect.scan_index (dialect : Dialect) {settings : ScanSettings}
    {options : ScanOptions} (h : settings.check = .ok options)
    (text : List Char) :
    ∃ rules, dialect.rules.withOptions options = .ok rules
      ∧ dialect.rules.scan options text
        = .ok (rules.index options text).result := by
  obtain ⟨rules, hrules⟩ := dialect.withOptions_ok h
  refine ⟨rules, hrules, ?_⟩
  unfold Rules.scan
  rw [hrules]
  rfl

/-- The records of a scan are those of one run of the matcher over the items of
the text. -/
theorem scan_records {rules applied : Rules} {options : ScanOptions}
    {text : List Char} {result : ScanResult}
    (happlied : rules.withOptions options = .ok applied)
    (h : rules.scan options text = .ok result) :
    result.records
      = (Matcher.run (applied.reading options text) {}
        (applied.items text)).records := by
  unfold Rules.scan at h
  rw [happlied] at h
  obtain rfl := Except.ok.inj h
  exact index_records ..

/-- Scanning by checked options always has a result. -/
theorem Dialect.scan_ok (dialect : Dialect) {settings : ScanSettings}
    {options : ScanOptions} (h : settings.check = .ok options)
    (text : List Char) :
    ∃ rules result, dialect.rules.withOptions options = .ok rules
      ∧ dialect.rules.scan options text = .ok result
      ∧ result.records
        = (Matcher.run (rules.reading options text) {}
          (rules.items text)).records := by
  obtain ⟨rules, hrules, hscan⟩ := dialect.scan_index h text
  exact ⟨rules, _, hrules, hscan, scan_records hrules hscan⟩

end Marginalia
