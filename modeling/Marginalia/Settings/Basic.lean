/-
Settings: what a configuration says, before it is checked.

Three sections, for scanning, for batches and for the log. A setting holds
whatever value was written for it, so that it can be shown again as it was
given; checking a section turns it into options of the proper types.
-/
import Marginalia.Value.Basic

namespace Marginalia

/-- The settings of a scan. -/
structure ScanSettings where
  windowMaxTokens : Value := .int 128
  includeInnerComments : Value := .bool true
  ignoreLinePatterns : Value := .list []
  outerMarkers : Value := .null
  innerMarkers : Value := .null
  deriving Repr, Inhabited

/-- The settings of a batch. -/
structure BatchSettings where
  maxWorkers : Value := .int 4
  chunkSize : Value := .int 8
  deriving Repr, Inhabited

/-- The settings of the log. -/
structure LogSettings where
  level : Value := .str "WARNING"
  format : Value := .str "%(asctime)s - %(name)s - %(levelname)s - %(message)s"
  deriving Repr, Inhabited

/-- All settings. -/
structure Settings where
  scan : ScanSettings := {}
  batch : BatchSettings := {}
  log : LogSettings := {}
  deriving Repr, Inhabited

-- ======================================================== by keyword

/-- The settings with the one of the given key replaced. -/
def ScanSettings.set? (settings : ScanSettings) (key : String) (value : Value) :
    Option ScanSettings :=
  match key with
  | "window_max_tokens" => some { settings with windowMaxTokens := value }
  | "include_inner_comments" =>
    some { settings with includeInnerComments := value }
  | "ignore_line_patterns" => some { settings with ignoreLinePatterns := value }
  | "outer_markers" => some { settings with outerMarkers := value }
  | "inner_markers" => some { settings with innerMarkers := value }
  | _ => none

@[inherit_doc ScanSettings.set?]
def BatchSettings.set? (settings : BatchSettings) (key : String)
    (value : Value) : Option BatchSettings :=
  match key with
  | "max_workers" => some { settings with maxWorkers := value }
  | "chunk_size" => some { settings with chunkSize := value }
  | _ => none

@[inherit_doc ScanSettings.set?]
def LogSettings.set? (settings : LogSettings) (key : String) (value : Value) :
    Option LogSettings :=
  match key with
  | "level" => some { settings with level := value }
  | "format" => some { settings with format := value }
  | _ => none

/-- A section with the entries of a mapping set one after the other; none if
the value is no mapping, or a key is no text or no setting's. -/
def setAll? {α : Type} (set? : α → String → Value → Option α) (settings : α) :
    Value → Option α
  | .map entries =>
    entries.foldlM
      (fun acc (key, value) =>
        match key with
        | .str key => set? acc key value
        | _ => none)
      settings
  | _ => none

/-- The scan settings that a mapping gives. -/
def ScanSettings.ofValue? : Value → Option ScanSettings :=
  setAll? ScanSettings.set? {}

/-- The batch settings that a mapping gives. -/
def BatchSettings.ofValue? : Value → Option BatchSettings :=
  setAll? BatchSettings.set? {}

/-- The log settings that a mapping gives. -/
def LogSettings.ofValue? : Value → Option LogSettings :=
  setAll? LogSettings.set? {}

-- ========================================================= as values

/-- The scan settings as a mapping. -/
def ScanSettings.toValue (settings : ScanSettings) : Value :=
  .map [
    (.str "window_max_tokens", settings.windowMaxTokens),
    (.str "include_inner_comments", settings.includeInnerComments),
    (.str "ignore_line_patterns", settings.ignoreLinePatterns),
    (.str "outer_markers", settings.outerMarkers),
    (.str "inner_markers", settings.innerMarkers)]

/-- The batch settings as a mapping. -/
def BatchSettings.toValue (settings : BatchSettings) : Value :=
  .map [(.str "max_workers", settings.maxWorkers),
    (.str "chunk_size", settings.chunkSize)]

/-- The log settings as a mapping. -/
def LogSettings.toValue (settings : LogSettings) : Value :=
  .map [(.str "level", settings.level), (.str "format", settings.format)]

/-- All settings as a mapping of their sections. -/
def Settings.toValue (settings : Settings) : Value :=
  .map [
    (.str "scan", settings.scan.toValue),
    (.str "batch", settings.batch.toValue),
    (.str "logging", settings.log.toValue)]

end Marginalia
