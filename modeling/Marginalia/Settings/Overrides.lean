/-
Settings from the environment.

A variable named after a section and a key overrides that setting. Lists
are separated by commas.
-/
import Marginalia.Settings.Basic
import Marginalia.Settings.Error
import Marginalia.Text.Case
import Marginalia.Text.Integer

namespace Marginalia

-- =========================================================== reading

/-- Whether a text says yes. -/
def readSwitch (text : String) : Bool :=
  ["true", "1", "yes", "on"].contains (Text.toLower text)

/-- The pieces of a text between commas. -/
def splitCommas : List Char → List (List Char)
  | [] => [[]]
  | c :: cs =>
    if c == ',' then [] :: splitCommas cs
    else
      match splitCommas cs with
      | piece :: pieces => (c :: piece) :: pieces
      | [] => [[c]]

/-- The items of a list, without the empty ones. -/
def readItems (cs : List Char) : List String :=
  (((splitCommas cs).map Text.trim).filter (!·.isEmpty)).map String.ofList

/-- How the text of a variable is read. -/
inductive OverrideKind where
  | integer
  | switch
  | items
  | text
  deriving DecidableEq, Repr

/-- The value that the text of a variable stands for. -/
def OverrideKind.read? (text : String) : OverrideKind → Option Value
  | integer => (Text.integer? text.toList).map .int
  | switch => some (.bool (readSwitch text))
  | items => some (.list ((readItems text.toList).map .str))
  | .text => some (.str text)

-- ========================================================= variables

/-- A variable of the environment and the setting it overrides. -/
structure Override where
  name : String
  kind : OverrideKind
  set : Settings → Value → Settings

/-- The variables, in the order in which they are taken up. -/
def overrides : List Override := [
  ⟨"DOCLINK_SCAN_WINDOW_MAX_TOKENS", .integer,
    fun s v => { s with scan := { s.scan with windowMaxTokens := v } }⟩,
  ⟨"DOCLINK_SCAN_INCLUDE_INNER_COMMENTS", .switch,
    fun s v => { s with scan := { s.scan with includeInnerComments := v } }⟩,
  ⟨"DOCLINK_SCAN_IGNORE_LINE_PATTERNS", .items,
    fun s v => { s with scan := { s.scan with ignoreLinePatterns := v } }⟩,
  ⟨"DOCLINK_SCAN_OUTER_MARKERS", .items,
    fun s v => { s with scan := { s.scan with outerMarkers := v } }⟩,
  ⟨"DOCLINK_SCAN_INNER_MARKERS", .items,
    fun s v => { s with scan := { s.scan with innerMarkers := v } }⟩,
  ⟨"DOCLINK_BATCH_MAX_WORKERS", .integer,
    fun s v => { s with batch := { s.batch with maxWorkers := v } }⟩,
  ⟨"DOCLINK_BATCH_CHUNK_SIZE", .integer,
    fun s v => { s with batch := { s.batch with chunkSize := v } }⟩,
  ⟨"DOCLINK_LOGGING_LEVEL", .text,
    fun s v => { s with log := { s.log with level := v } }⟩,
  ⟨"DOCLINK_LOGGING_FORMAT", .text,
    fun s v => { s with log := { s.log with format := v } }⟩]

/-- The settings with one variable taken up, if it is set. -/
def Override.apply (override : Override) (environment : List (String × String))
    (settings : Settings) : Except SettingsError Settings :=
  match environment.lookup override.name with
  | none => .ok settings
  | some text =>
    match override.kind.read? text with
    | some value => .ok (override.set settings value)
    | none => .error (.badOverride override.name text)

/-- The settings with the variables of an environment taken up. -/
def Settings.override (settings : Settings)
    (environment : List (String × String)) : Except SettingsError Settings :=
  overrides.foldlM (fun settings override =>
    override.apply environment settings) settings

end Marginalia
