/-
Checking settings.

A check goes through a section in a fixed order and either finds the first
thing that is wrong or returns the section's options.
-/
import Marginalia.Pattern.Reader
import Marginalia.Scan.Options
import Marginalia.Settings.Basic
import Marginalia.Settings.Error

namespace Marginalia

-- ============================================================== scan

/-- What a value is a collection of, where one is needed. -/
def itemsOf (value : Value) : Except SettingsError (List Value) :=
  match value.items? with
  | some items => .ok items
  | none => .error .wrongType

/-- The pattern that characters write; `shown` is what a refusal shows of it. -/
def patternOf (shown : String) (chars : List Char) :
    Except SettingsError Pattern :=
  match Pattern.ofText chars with
  | .ok pattern => .ok pattern
  | .error .malformed => .error (.badPattern shown)
  | .error error => .error (.unusablePattern error)

/-- The pattern that an entry writes, in characters or in bytes. -/
def checkPattern : Value → Except SettingsError Pattern
  | .str text => patternOf text text.toList
  | .bytes data => patternOf (Value.bytes data).plain (data.map Char.ofNat)
  | _ => .error .wrongType

/-- A marker, which starts like a comment. -/
def checkMarker (placement : Placement) (value : Value) :
    Except SettingsError String :=
  match value with
  | .str text =>
    if ['/', '/'].isPrefixOf text.toList
        || ['/', '*'].isPrefixOf text.toList then .ok text
    else .error (.refusing value (.badMarker placement value))
  | _ => .error (.refusing value (.badMarker placement value))

/-- The markers of a placement, if some are set. -/
def checkMarkers (placement : Placement) :
    Value → Except SettingsError (Option (List String))
  | .null => .ok none
  | value => do return some (← (← itemsOf value).mapM (checkMarker placement))

/-- The size of the window: a whole number, at least one. -/
def checkWindow (value : Value) : Except SettingsError Nat :=
  match value.integer? with
  | some n => if n < 1 then .error (.refusing value (.badWindow value))
    else .ok n.toNat
  | none => .error (.refusing value (.badWindow value))

/-- The options that scan settings amount to. A pattern may be in bytes. -/
def ScanSettings.validated (settings : ScanSettings) :
    Except SettingsError ScanOptions := do
  let window ← checkWindow settings.windowMaxTokens
  let ignorePatterns ← (← itemsOf settings.ignoreLinePatterns).mapM checkPattern
  let outerMarkers ← checkMarkers .outer settings.outerMarkers
  let innerMarkers ← checkMarkers .inner settings.innerMarkers
  return {
    window
    writtenWindow := settings.windowMaxTokens.plain
    includeInner := settings.includeInnerComments.isTruthy
    ignorePatterns
    outerMarkers
    innerMarkers }

/-- Whether one of the patterns is in bytes. -/
def ScanSettings.searchesBytes (settings : ScanSettings) : Bool :=
  settings.ignoreLinePatterns.items?.any fun items =>
    items.any fun
      | .bytes _ => true
      | _ => false

/-- The options for scanning a text with the settings. Its lines are texts,
which cannot be searched for a pattern in bytes. -/
def ScanSettings.check (settings : ScanSettings) :
    Except SettingsError ScanOptions := do
  let options ← settings.validated
  if settings.searchesBytes then .error .wrongType else return options

-- ============================================================= batch

/-- The options of a batch. -/
structure BatchOptions where
  /-- Whether several documents are given to a pool of workers. -/
  pooled : Bool
  deriving DecidableEq, Repr

/-- A count, which is at least one. -/
def checkCount (count : BatchCount) (value : Value) :
    Except SettingsError Unit :=
  match value.belowOne? with
  | none => .error .wrongType
  | some true => .error (.refusing value (.tooFew count value))
  | some false => .ok ()

/-- The number of workers from which on a pool cannot start. -/
def workerLimit : Int := 2147483647

/-- The number of documents in a chunk from which on a pool cannot start. -/
def chunkLimit : Int := 9223372036854775808

/-- The options that batch settings amount to. A pool takes whole numbers of
workers and of documents in a chunk, below the limits; with any other it
cannot start. -/
def BatchSettings.check (settings : BatchSettings) :
    Except SettingsError BatchOptions := do
  checkCount .workers settings.maxWorkers
  checkCount .chunk settings.chunkSize
  return {
    pooled :=
      settings.maxWorkers.integer?.any (fun n => 1 < n && n < workerLimit)
        && settings.chunkSize.integer?.any (· < chunkLimit) }

-- =============================================================== log

/-- A letter in upper case, as far as that is one of `A` to `Z`. -/
def upperLetter (c : Char) : Char :=
  if c == 'ı' then 'I' else if c == 'ſ' then 'S' else c.toUpper

/-- The place of a level among the levels. -/
def checkLevel (value : Value) : Except SettingsError Nat :=
  match value with
  | .str text =>
    match SettingsError.levels.idxOf?
        (String.ofList (text.toList.map upperLetter)) with
    | some i => .ok i
    | none => .error (.refusing value (.badLevel value))
  | _ => .error (.refusing value (.badLevel value))

/-- The place of the log's level among the levels. -/
def LogSettings.check (settings : LogSettings) : Except SettingsError Nat :=
  checkLevel settings.level

-- =============================================================== all

/-- Checks every section: scan, then batch, then log. -/
def Settings.check (settings : Settings) : Except SettingsError Unit := do
  let _ ← settings.scan.validated
  let _ ← settings.batch.check
  let _ ← settings.log.check

-- ===================================================== unchecked use

/-- A doc marker from a setting that was not checked. -/
def uncheckedMarker (rules : Rules) (placement : Placement) :
    Value → Except SettingsError DocMarker
  | .str text => (rules.docMarker placement text).mapError .foreignMarker
  | _ => .error .markerNoText

/-- The markers of one placement from a setting that was not checked. -/
def uncheckedMarkers (rules : Rules) (placement : Placement) :
    Value → Except SettingsError (List DocMarker)
  | .null => .ok (rules.markers.filter (·.placement == placement))
  | value => do (← itemsOf value).mapM (uncheckedMarker rules placement)

/-- The rules with scan settings applied that were not checked. -/
def ScanSettings.applyTo (settings : ScanSettings) (rules : Rules) :
    Except SettingsError Rules := do
  let marked ←
    match settings.outerMarkers, settings.innerMarkers with
    | .null, .null => pure rules
    | outerMarkers, innerMarkers => do
      let outer ← uncheckedMarkers rules .outer outerMarkers
      let inner ← uncheckedMarkers rules .inner innerMarkers
      pure { rules with markers := outer ++ inner }
  return marked.withInnerComments settings.includeInnerComments.isTruthy

end Marginalia
