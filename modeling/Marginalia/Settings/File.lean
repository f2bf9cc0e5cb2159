/-
Settings in files.

The suffix of a file says whether it is YAML or JSON. A file holds a
mapping of sections; sections that are left out have their defaults, and
other keys beside the sections are passed over.
-/
import Marginalia.Path
import Marginalia.Settings.Check
import Marginalia.Settings.Overrides
import Marginalia.Text.Lines
import Marginalia.Text.Occurrence
import Marginalia.Value.Json
import Marginalia.Yaml.Reader
import Marginalia.Yaml.Writer

namespace Marginalia

-- =========================================================== formats

/-- The formats of settings files. -/
inductive FileFormat where
  | yaml
  | json
  deriving DecidableEq, Repr

/-- The format that a path's suffix stands for. -/
def FileFormat.ofPath (path : String) : Except SettingsError FileFormat :=
  match Path.suffix path with
  | ".yaml" => .ok .yaml
  | ".yml" => .ok .yaml
  | ".json" => .ok .json
  | suffix => .error (.unknownFormat suffix)

/-- The document that a text holds, by what reads YAML. A YAML document that
counts as false, and a JSON text of nothing but blanks, is an empty mapping. -/
def FileFormat.readBy (readYaml : DocumentReader) (text : List Char) :
    FileFormat → Except ReadError Value
  | yaml =>
    (readYaml text).map fun value => if value.isTruthy then value else .map []
  | json =>
    if (Text.trim text).isEmpty then .ok (.map []) else Json.read text

/-- The document that a text holds. -/
def FileFormat.read (text : List Char) (format : FileFormat) :
    Except ReadError Value :=
  format.readBy Yaml.read text

/-- A document in a format. JSON has no dates, bytes or sets. -/
def FileFormat.write (value : Value) : FileFormat → Except SettingsError String
  | yaml =>
    if Yaml.maxWrittenDepth < value.depth then .error .tooDeep
    else if !value.isWritable then .error .unwritable
    else .ok (Yaml.write value)
  | json =>
    match Json.write value with
    | .ok text => .ok text
    | .error .noForm => .error .wrongType
    | .error .unwritable => .error .unwritable

-- ========================================================== sections

/-- Whether a document has something under a name. In a text that is the name
as part of it, in a list the name as an item; what is no collection
cannot be asked. -/
def Value.mentions? (name : String) : Value → Option Bool
  | .map entries => some (entries.any fun e => Value.sameKey e.1 (.str name))
  | .list items => some (items.any fun item => Value.sameKey item (.str name))
  | .set items => some (items.any fun item => Value.sameKey item (.str name))
  | .str s => some (Text.occursIn name.toList s.toList)
  | _ => none

/-- A section of a document: the default if the document does not mention it,
and refused if it cannot be read as one. -/
def readSection {α : Type} (name : String) (ofValue? : Value → Option α)
    (default : α) (document : Value) : Except SettingsError α :=
  match document.mentions? name with
  | none => .error .unknownKey
  | some false => .ok default
  | some true =>
    match (document.get? name).bind ofValue? with
    | some settings => .ok settings
    | none => .error .unknownKey

/-- The settings of a document, unchecked. -/
def Settings.ofValue (document : Value) : Except SettingsError Settings := do
  return {
    scan := ← readSection "scan" ScanSettings.ofValue? {} document
    batch := ← readSection "batch" BatchSettings.ofValue? {} document
    log := ← readSection "logging" LogSettings.ofValue? {} document }

-- ============================================================= files

/-- The settings of a file, checked, by what reads YAML; `content` is none if
there is no file. It is the file's text: bytes that are no text are refused by
whoever decodes them, and do not get here. -/
def Settings.ofFileBy (readYaml : DocumentReader) (path : String)
    (content : Option String) : Except SettingsError Settings := do
  match content with
  | none => .error (.missingFile (Path.normal path))
  | some text =>
    let format ← FileFormat.ofPath path
    match format.readBy readYaml (Text.unifyBreaks text.toList) with
    | .error .malformed => .error (.unreadable (Path.normal path))
    | .error error => .error (.unusable error)
    | .ok document =>
      let settings ← Settings.ofValue document
      settings.check
      return settings

/-- The settings of a file, checked. -/
def Settings.ofFile (path : String) (content : Option String) :
    Except SettingsError Settings :=
  Settings.ofFileBy Yaml.read path content

/-- The settings to work with: those of a file, or the defaults if none is
named, with the environment's variables taken up if there is one. -/
def Settings.load (file : Option (String × Option String))
    (environment : Option (List (String × String))) :
    Except SettingsError Settings := do
  let base ←
    match file with
    | none => pure {}
    | some (path, content) => Settings.ofFile path content
  let settings ←
    match environment with
    | none => pure base
    | some environment => base.override environment
  settings.check
  return settings

/-- How deeply collections may be nested in settings that are copied. -/
def maxCopiedDepth : Nat := 492

/-- The settings as a mapping of their own. -/
def Settings.copied (settings : Settings) : Except SettingsError Value :=
  if maxCopiedDepth < settings.toValue.depth then .error .tooDeep
  else .ok settings.toValue

/-- The settings in a format. -/
def Settings.written (settings : Settings) (format : FileFormat) :
    Except SettingsError String := do
  format.write (← settings.copied)

/-- The text to be saved under a path. -/
def Settings.saved (settings : Settings) (path : String) :
    Except SettingsError String := do
  settings.written (← FileFormat.ofPath path)

/-- Whether a value is a mapping. -/
def Value.isMap : Value → Bool
  | .map _ => true
  | _ => false

/-- The sections of a document of defaults. A document that is missing or not
well-formed has none, and entries that are no mappings are passed over. -/
def defaultSections (content : Option String) :
    Except ReadError (List (Value × Value)) :=
  match content.map fun text => Yaml.read (Text.unifyBreaks text.toList) with
  | some (.ok (.map entries)) => .ok (entries.filter (·.2.isMap))
  | some (.error .malformed) => .ok []
  | some (.error error) => .error error
  | _ => .ok []

end Marginalia
