/-
Settings saved as JSON and read from the file again.

Settings whose values have the types declared for them make a document
that JSON has a form for, three collections deep. So what is saved reads
back as the same document, the document gives the same settings, and these
pass their check again. Nothing but a number of too many digits can keep
them from being saved.
-/
import Marginalia.Proofs.Settings.Refused
import Marginalia.Proofs.Token.Order
import Marginalia.Proofs.Value.RoundTrip

namespace Marginalia

-- ==================================================== declared types

/-- The types that settings are declared with. -/
inductive SettingType where
  | int
  | bool
  | text
  | texts
  /-- Texts that may be left open. -/
  | markers
  deriving DecidableEq, Repr

/-- Whether a value is a text. -/
def Value.isText : Value → Bool
  | .str _ => true
  | _ => false

/-- Whether a value has the type. -/
def SettingType.admits : SettingType → Value → Bool
  | int, .int _ => true
  | bool, .bool _ => true
  | text, .str _ => true
  | texts, .list items => items.all Value.isText
  | markers, .null => true
  | markers, .list items => items.all Value.isText
  | _, _ => false

/-- The values of settings with the types declared for them. -/
def Settings.declared (settings : Settings) : List (SettingType × Value) :=
  [
    (.int, settings.scan.windowMaxTokens),
    (.bool, settings.scan.includeInnerComments),
    (.texts, settings.scan.ignoreLinePatterns),
    (.markers, settings.scan.outerMarkers),
    (.markers, settings.scan.innerMarkers), (.int, settings.batch.maxWorkers),
    (.int, settings.batch.chunkSize), (.text, settings.log.level),
    (.text, settings.log.format)]

/-- Whether all values have the types declared for them. -/
def Settings.isTyped (settings : Settings) : Bool :=
  settings.declared.all fun (type, value) => type.admits value

-- ====================================================== the document

theorem Value.texts_plain {items : List Value}
    (h : items.all Value.isText = true) :
    arePlain items = true ∧ depthOfItems items = 0 := by
  induction items with
  | nil => exact ⟨rfl, rfl⟩
  | cons v vs ih =>
      rw [List.all_cons, Bool.and_eq_true] at h
      obtain ⟨hplain, hdepth⟩ := ih h.2
      cases v with
      | str s => exact ⟨hplain, by rw [depthOfItems, hdepth]; rfl⟩
      | _ => cases h.1

/-- A value of a declared type has a form, and is at most one collection
deep. -/
theorem SettingType.admits_plain {type : SettingType} {value : Value}
    (h : type.admits value = true) :
    value.isPlain = true ∧ value.depth ≤ 1 := by
  unfold SettingType.admits at h
  split at h
  · exact ⟨rfl, Nat.zero_le 1⟩
  · exact ⟨rfl, Nat.zero_le 1⟩
  · exact ⟨rfl, Nat.zero_le 1⟩
  · obtain ⟨hplain, hdepth⟩ := Value.texts_plain h
    exact ⟨hplain, Nat.le_of_eq (by rw [Value.depth, hdepth])⟩
  · exact ⟨rfl, Nat.zero_le 1⟩
  · obtain ⟨hplain, hdepth⟩ := Value.texts_plain h
    exact ⟨hplain, Nat.le_of_eq (by rw [Value.depth, hdepth])⟩
  · cases h

/-- The document of typed settings has a form, and is at most three
collections deep. -/
theorem Settings.toValue_plain {settings : Settings}
    (h : settings.isTyped = true) :
    settings.toValue.isPlain = true ∧ settings.toValue.depth ≤ 3 := by
  have hall : ∀ d ∈ settings.declared, d.2.isPlain = true ∧ d.2.depth ≤ 1 :=
    fun d hd => SettingType.admits_plain (List.all_eq_true.1 h d hd)
  simp only [Settings.declared, List.forall_mem_cons, List.not_mem_nil,
    false_implies, implies_true, and_true] at hall
  obtain ⟨⟨h1, d1⟩, ⟨h2, d2⟩, ⟨h3, d3⟩, ⟨h4, d4⟩, ⟨h5, d5⟩, ⟨h6, d6⟩, ⟨h7, d7⟩,
      ⟨h8, d8⟩,
    h9, d9⟩ := hall
  constructor
  · simp [Settings.toValue, ScanSettings.toValue, BatchSettings.toValue,
      LogSettings.toValue, Value.isPlain, Value.entriesPlain, Value.sameKey, h1,
      h2, h3, h4, h5, h6, h7, h8, h9]
  · simp only [Settings.toValue, ScanSettings.toValue, BatchSettings.toValue,
      LogSettings.toValue, Value.depth, Value.depthOfEntries, Nat.reduceLeDiff,
      Nat.max_le, Nat.zero_le, and_true, d1, d2, d3, d4, d5, d6, d7, d8, d9]

/-- Settings are those of their document. -/
theorem Settings.ofValue_toValue (settings : Settings) :
    Settings.ofValue settings.toValue = .ok settings := rfl

-- ========================================================== the file

theorem Text.unifyBreaks_of_not_mem {cs : List Char} (h : '\r' ∉ cs) :
    unifyBreaks cs = cs := by
  fun_induction unifyBreaks cs with
  | case1 => rfl
  | case2 cs ih => exact absurd List.mem_cons_self h
  | case3 cs hnext ih => exact absurd List.mem_cons_self h
  | case4 c cs h1 h2 ih => rw [ih fun hmem => h (List.mem_cons_of_mem c hmem)]

theorem Text.trim_ne_nil {c : Char} (hc : isBlank c = false) (cs : List Char) :
    trim (c :: cs) ≠ [] := by
  rw [trim, trimLeft, List.dropWhile_cons_of_neg (by simp [hc])]
  intro h
  exact absurd (trimRight_eq_nil.1 h c List.mem_cons_self) (by simp [hc])

/-- A text that is read back as a value is so from a file. -/
theorem FileFormat.read_json {v : Value} {text : List Char}
    (h : Json.ReadsAs v text) (hdepth : v.depth ≤ Json.maxDepth) :
    FileFormat.read (Text.unifyBreaks text) .json = .ok v := by
  have hdocument := h.document hdepth
  have hreturn : '\r' ∉ text := fun hmem =>
    absurd (List.all_eq_true.1 h.printed '\r' hmem) (by decide)
  rw [Text.unifyBreaks_of_not_mem hreturn, FileFormat.read, FileFormat.readBy]
  obtain ⟨c, cs, rfl, hblank, -⟩ := h.head
  rw [if_neg (by simpa using Text.trim_ne_nil hblank cs), hdocument]

/-- Typed settings are saved as their document is written. -/
theorem Settings.saved_json {settings : Settings} (h : settings.isTyped = true)
    {path : String} (hpath : FileFormat.ofPath path = .ok .json) :
    settings.saved path = FileFormat.write settings.toValue .json := by
  have hdepth : ¬ maxCopiedDepth < settings.toValue.depth := by
    have := (Settings.toValue_plain h).2
    have : maxCopiedDepth = 492 := rfl
    omega
  simp only [Settings.saved, hpath, Settings.written, Settings.copied,
    if_neg hdepth]
  rfl

/-- Typed settings that pass their check are saved as JSON in ASCII, and the
file gives the same settings again, unless one of their numbers has too many
digits; then saving is refused. -/
theorem json_settings_reloaded {settings : Settings}
    (htyped : settings.isTyped = true) (hcheck : settings.check = .ok ())
    {path : String} (hpath : FileFormat.ofPath path = .ok .json) :
    (settings.toValue.isWritable = true → ∃ text, settings.saved path = .ok text
        ∧ text.toList.all Json.isPrinted = true
        ∧ Settings.ofFile path (some text) = .ok settings)
      ∧ (settings.toValue.isWritable = false →
        settings.saved path = .error .unwritable) := by
  obtain ⟨hplain, hdepth⟩ := Settings.toValue_plain htyped
  rw [Settings.saved_json htyped hpath, FileFormat.write]
  constructor
  · intro hwritable
    obtain ⟨text, htext, hreads⟩ := Json.write_readsAs hplain hwritable
    refine ⟨String.ofList text, by rw [htext], ?_, ?_⟩
    · rw [String.toList_ofList]
      exact hreads.printed
    · have hread :=
        FileFormat.read_json hreads (Nat.le_trans hdepth (by decide))
      rw [FileFormat.read] at hread
      rw [Settings.ofFile, Settings.ofFileBy_eq _ hpath,
        String.toList_ofList, hread]
      simp only [Settings.ofValue_toValue, bind, Except.bind, hcheck]
  · intro hwritable
    rw [Json.write_unwritable hplain hwritable]

/-- Markers that are none, markers left open, and texts with quotes,
backslashes, line ends and characters of one and of two units all come back. -/
theorem escaped_settings_reloaded :
    let settings : Settings := {
      scan := {
        windowMaxTokens := .int 64
        ignoreLinePatterns := .list [.str "\"é\t😀", .str ""]
        outerMarkers := .list []
        innerMarkers := .null }
      log := { level := .str "info", format := .str "\\\r\n\x7f\uFFFD" } }
    settings.isTyped = true ∧ settings.check = .ok ()
      ∧ FileFormat.ofPath "c.json" = .ok .json
      ∧ ∃ text, settings.saved "c.json" = .ok text
      ∧ text.toList.all Json.isPrinted = true
        ∧ Settings.ofFile "c.json" (some text) = .ok settings := by
  intro settings
  have htyped : settings.isTyped = true := by decide
  have hcheck : settings.check = .ok () := by with_unfolding_all rfl
  have hpath : FileFormat.ofPath "c.json" = .ok .json := by
    with_unfolding_all rfl
  exact ⟨htyped, hcheck, hpath,
    (json_settings_reloaded htyped hcheck hpath).1 (by decide)⟩

/-- A window of one and as many zeros as digits are allowed passes its check and
is not saved. -/
theorem long_window_not_saved :
    let settings : Settings :=
  { scan := { windowMaxTokens := .int (10 ^ Text.maxDigits : Nat) } }
    settings.isTyped = true ∧ settings.check = .ok ()
      ∧ FileFormat.ofPath "c.json" = .ok .json
      ∧ settings.saved "c.json" = .error .unwritable := by
  intro settings
  have hpath : FileFormat.ofPath "c.json" = .ok .json := by
    with_unfolding_all rfl
  have hwindow : checkWindow settings.scan.windowMaxTokens
      = .ok (10 ^ Text.maxDigits) := by
    have hpos : ¬ ((10 ^ Text.maxDigits : Nat) : Int) < 1 := by
      have := Nat.one_le_pow Text.maxDigits 10 (by decide)
      omega
    show checkWindow (.int (10 ^ Text.maxDigits : Nat)) = _
    rw [checkWindow, Value.integer?]
    simp only [if_neg hpos, Int.toNat_natCast]
  have hcheck : settings.check = .ok () := by
    rw [Settings.check, ScanSettings.validated, hwindow]
    rfl
  have hlong : Text.isWritable (10 ^ Text.maxDigits : Nat) = false := by
    rw [Text.isWritable, Int.natAbs_natCast, decide_eq_false_iff_not,
      Nat.length_toDigits_le_iff (by decide) (by decide)]
    exact Nat.lt_irrefl _
  have hunwritable : settings.toValue.isWritable = false := by
    have hsetting : settings.scan.windowMaxTokens.isWritable = false := by
      rw [← hlong]
      rfl
    simp only [Settings.toValue, ScanSettings.toValue, Value.isWritable,
      Value.entriesWritable, hsetting, Bool.and_false, Bool.false_and]
  have htyped : settings.isTyped = true := rfl
  refine ⟨htyped, hcheck, hpath, ?_⟩
  have hplain := (Settings.toValue_plain htyped).1
  rw [Settings.saved_json htyped hpath, FileFormat.write,
    Json.write_unwritable hplain hunwritable]

end Marginalia
