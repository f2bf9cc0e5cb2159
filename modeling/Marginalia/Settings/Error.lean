/-
What can be wrong with settings.
-/
import Marginalia.Dialect.Rules
import Marginalia.Pattern.Reader
import Marginalia.Value.Error
import Marginalia.Value.Shown

namespace Marginalia

/-- The settings of a batch that count something. -/
inductive BatchCount where
  | workers
  | chunk
  deriving DecidableEq, Repr

/-- The key of a count. -/
def BatchCount.key : BatchCount → String
  | workers => "max_workers"
  | chunk => "chunk_size"

/-- Why settings were refused. -/
inductive SettingsError where
  | badWindow (given : Value)
  | badPattern (pattern : String)
  /-- A pattern that is not read, though it may be well formed. -/
  | unusablePattern (error : PatternError)
  | badMarker (placement : Placement) (given : Value)
  | tooFew (count : BatchCount) (given : Value)
  | badLevel (given : Value)
  /-- A log format that places no field. -/
  | badFormat (given : String)
  /-- A file that is not there. -/
  | missingFile (path : String)
  /-- A file whose suffix stands for no format. -/
  | unknownFormat (suffix : String)
  /-- A file that is not well-formed. -/
  | unreadable (path : String)
  /-- A file that holds something that is no value. -/
  | unusable (error : ReadError)
  /-- A value that has to be shown or written, with a number of too many digits
  in it. -/
  | unwritable
  /-- A setting whose collections are nested too deeply. -/
  | tooDeep
  /-- A document that is no mapping of sections with known keys. -/
  | unknownKey
  /-- An override of the environment that cannot be read. -/
  | badOverride (name : String) (given : String)
  /-- A marker that opens no comment. -/
  | foreignMarker (error : MarkerError)
  /-- A value that the check cannot look at, such as a number for a list. -/
  | wrongType
  /-- A marker that is no text. -/
  | markerNoText
  deriving Repr

namespace SettingsError

/-- The levels of the log, least first. -/
def levels : List String := ["DEBUG", "INFO", "WARNING", "ERROR", "CRITICAL"]

/-- What is said of refused settings. -/
def message : SettingsError → String
  | badWindow given =>
    "scan.window_max_tokens must be a positive integer, got " ++ given.shown
  | badPattern pattern => "Invalid ignore line pattern '" ++ pattern ++ "'"
  | unusablePattern error => error.message
  | badMarker placement given =>
    "scan." ++ placement.name
      ++ "_markers entries must start with // or /*, got " ++ given.shown
  | tooFew count given =>
    "batch." ++ count.key ++ " must be at least 1, got " ++ given.plain
  | badLevel given =>
    "logging.level must be one of " ++ ", ".intercalate levels ++ ", got "
      ++ given.shown
  | badFormat given => "Invalid format '" ++ given ++ "' for '%' style"
  | missingFile path => "Configuration file not found: " ++ path
  | unknownFormat suffix => "Unsupported config file format: " ++ suffix
  | unreadable path => "Failed to parse config file " ++ path
  | unusable error => error.message
  | unwritable => Text.tooManyDigitsMessage none
  | tooDeep => "A setting is nested too deeply"
  | unknownKey => "Unknown configuration key"
  | badOverride name given =>
    "Invalid value for " ++ name ++ ": " ++ Text.quoted given
  | foreignMarker error => error.message
  | wrongType => "A setting has a value of the wrong type"
  | markerNoText => "A doc marker must be a text"

/-- Whether the cause is a value that a check could not even look at. Such a
fault stops whoever uses the settings; every other cause is reported. -/
def isFault : SettingsError → Bool
  | wrongType => true
  | markerNoText => true
  | unusablePattern _ => true
  | unusable _ => true
  | unwritable => true
  | tooDeep => true
  | _ => false

/-- Why a value is refused: for the given reason, if the value can be shown
with it. -/
def refusing (given : Value) (reason : SettingsError) : SettingsError :=
  if given.isWritable then reason else unwritable

end SettingsError

end Marginalia
