/-
What the tables of the dialects have in common.

No dialect writes white space into a delimiter, every literal becomes a
literal, an escape is a backslash, and no dialect has both a preprocessor
and statements that end at line breaks. Options change only the markers, so
all this is true of the rules any scan goes by (`Dialect.plain`).

No opener and no marker of such rules is empty either, the given ones
included, since a given marker starts with an opener. So a text can always be
read (`Dialect.usable`) and each of its comments judged (`Dialect.judges`).
-/
import Marginalia.Dialect.Tables
import Marginalia.Proofs.Scan.Applied

namespace Marginalia

/-- A delimiter that has characters, none of them white space. -/
def Delimiter.isPlain (d : Delimiter) : Bool :=
  !d.isEmpty && d.chars.all (!Text.isBlank ·)

/-- Whether the stretch is that of a literal. -/
def SpanKind.isLiteral : SpanKind → Bool
  | .literal _ => true
  | _ => false

/-- A literal with plain delimiters and a backslash, if any, to escape. -/
def LiteralRule.isPlain (rule : LiteralRule) : Bool :=
  rule.opener.isPlain && rule.closer.isPlain && rule.kind.isLiteral
    && (rule.escape == none || rule.escape == some ['\\'])

/-- Rules with plain delimiters and literals, and not both directives and
statements that end at line breaks. -/
def Rules.isPlain (rules : Rules) : Bool :=
  rules.lineComment.isPlain && rules.blockOpener.isPlain
    && rules.blockCloser.isPlain && rules.literals.all (·.isPlain)
    && !(rules.preprocessor && rules.newlineTerminates)

/-- Markers do not matter to plainness. -/
theorem Rules.isPlain_markers (rules : Rules) (markers : List DocMarker) :
    { rules with markers }.isPlain = rules.isPlain := rfl

/-- The rules of a scan are plain, whatever its options. -/
theorem Dialect.plain (dialect : Dialect) {options : ScanOptions}
    {rules : Rules} (h : dialect.rules.withOptions options = .ok rules) :
    rules.isPlain = true := by
  obtain ⟨markers, rfl⟩ := withOptions_eq h
  rw [Rules.isPlain_markers]
  cases dialect <;> decide

theorem Delimiter.isPlain_iff {d : Delimiter} :
    d.isPlain = true ↔ d.chars ≠ [] ∧ ∀ c ∈ d.chars,
      Text.isBlank c = false := by
  simp [isPlain, isEmpty]

-- =========================================================== openers

theorem Delimiter.isEmpty_of_isPlain {d : Delimiter} (h : d.isPlain = true) :
    d.isEmpty = false := by
  simp only [isPlain, Bool.and_eq_true, Bool.not_eq_eq_eq_not,
    Bool.not_true] at h
  exact h.1

/-- Plain rules can be used to read a text. -/
theorem Rules.isUsable_of_isPlain {rules : Rules} (h : rules.isPlain = true) :
    rules.isUsable = true := by
  simp only [isPlain, LiteralRule.isPlain, Bool.and_eq_true,
    List.all_eq_true] at h
  obtain ⟨⟨⟨⟨hline, hblock⟩, -⟩, hliterals⟩, -⟩ := h
  simp only [isUsable, Bool.and_eq_true, List.all_eq_true,
    Bool.not_eq_eq_eq_not, Bool.not_true]
  refine ⟨⟨Delimiter.isEmpty_of_isPlain hline,
    Delimiter.isEmpty_of_isPlain hblock⟩, ?_⟩
  intro rule hrule
  exact Delimiter.isEmpty_of_isPlain (hliterals rule hrule).1.1.1

/-- A text can be read by the rules of a scan, whatever its options. -/
theorem Dialect.usable (dialect : Dialect) {options : ScanOptions}
    {rules : Rules} (h : dialect.rules.withOptions options = .ok rules) :
    rules.isUsable = true :=
  Rules.isUsable_of_isPlain (dialect.plain h)

-- =========================================================== markers

/-- Every marker has a character. -/
def Rules.MarkersFilled (rules : Rules) : Prop :=
  ∀ marker ∈ rules.markers, marker.opener.isEmpty = false

/-- What starts with an opener that has a character has one. -/
theorem Delimiter.isEmpty_of_startsAt {d : Delimiter} {marker : String}
    (hd : d.isEmpty = false) (h : d.startsAt marker.toList = true) :
    (Delimiter.ofString marker).isEmpty = false := by
  obtain ⟨rest, hrest⟩ := List.isPrefixOf_iff_prefix.1 h
  rw [isEmpty, List.isEmpty_eq_false_iff] at hd ⊢
  rw [ofString, ← hrest]
  exact List.append_ne_nil_of_left_ne_nil hd rest

/-- A given marker opens a comment, so it has a character. -/
theorem Rules.docMarker_filled {rules : Rules} (husable : rules.isUsable = true)
    {placement : Placement} {given : String} {marker : DocMarker}
    (h : rules.docMarker placement given = .ok marker) :
    marker.opener.isEmpty = false := by
  simp only [isUsable, Bool.and_eq_true, Bool.not_eq_eq_eq_not, Bool.not_true]
    at husable
  obtain ⟨⟨hline, hblock⟩, -⟩ := husable
  unfold docMarker at h
  split at h
  · next kind hkind =>
    cases h
    unfold markerKind? at hkind
    split at hkind
    · next hstarts => exact Delimiter.isEmpty_of_startsAt hblock hstarts
    · split at hkind
      · next hstarts => exact Delimiter.isEmpty_of_startsAt hline hstarts
      · cases hkind
  · cases h

theorem Rules.markersFor_filled {rules : Rules}
    (husable : rules.isUsable = true) (hfilled : rules.MarkersFilled)
    {placement : Placement} {given : Option (List String)}
    {markers : List DocMarker}
    (h : rules.markersFor placement given = .ok markers) :
    ∀ marker ∈ markers, marker.opener.isEmpty = false := by
  intro marker hmarker
  cases given with
  | none =>
      cases h
      exact hfilled marker (List.mem_filter.1 hmarker).1
  | some texts =>
      obtain ⟨text, -, htext⟩ := mem_of_mapM_ok texts markers h marker hmarker
      exact docMarker_filled husable htext

/-- Options leave no marker without a character. -/
theorem Rules.withOptions_filled {rules applied : Rules} {options : ScanOptions}
    (husable : rules.isUsable = true) (hfilled : rules.MarkersFilled)
    (h : rules.withOptions options = .ok applied) : applied.MarkersFilled := by
  obtain ⟨marked, hmarked, rfl⟩ := withOptions_parts h
  have hmarkers : marked.MarkersFilled := by
    unfold withMarkers at hmarked
    split at hmarked
    · cases hmarked
      exact hfilled
    · obtain ⟨outer, houter, hmarked⟩ := bind_eq_ok.1 hmarked
      obtain ⟨inner, hinner, hmarked⟩ := bind_eq_ok.1 hmarked
      cases hmarked
      intro marker hmarker
      rcases List.mem_append.1 hmarker with hmarker | hmarker
      · exact markersFor_filled husable hfilled houter marker hmarker
      · exact markersFor_filled husable hfilled hinner marker hmarker
  unfold withInnerComments
  split
  · exact hmarkers
  · intro marker hmarker
    exact hmarkers marker (List.mem_filter.1 hmarker).1

/-- The marker of a verdict is one of the rules' markers. -/
theorem Rules.verdict_isGiven {rules : Rules} (hfilled : rules.MarkersFilled)
    (kind : CommentKind) (raw : List Char) (trailing : Bool) :
    (rules.verdict kind raw trailing).isGiven = true := by
  unfold verdict
  split
  · rfl
  · split
    · next marker hmarker =>
      have hempty := hfilled marker (List.mem_of_find?_eq_some hmarker)
      simp [Verdict.isGiven, Verdict.marker?, hempty]
    · rfl

/-- The rules of a scan, whatever its options, give every comment its
verdict. -/
theorem Dialect.judges (dialect : Dialect) {options : ScanOptions}
    {rules : Rules} (h : dialect.rules.withOptions options = .ok rules)
    (text : List Char) (comments : List Comment) :
    rules.judges text comments = true := by
  have husable : dialect.rules.isUsable = true := by cases dialect <;> decide
  have htable : dialect.rules.MarkersFilled := by
    unfold Rules.MarkersFilled
    cases dialect <;> decide
  have hfilled := Rules.withOptions_filled husable htable h
  refine List.all_eq_true.2 fun c _ => ?_
  rw [Rules.verdict_isGiven hfilled, Bool.or_true]

end Marginalia
