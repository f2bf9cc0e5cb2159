/-
Documents of a batch: a text with a name, scanned on its own.

A document may say its dialect; else the suffix of its name decides. What
keeps a document from being scanned is part of its result and does not
concern the others.
-/
import Marginalia.Dialect.Registry
import Marginalia.Scan.Basic
import Marginalia.Settings.Check

namespace Marginalia

/-- A text to scan. -/
structure Document where
  /-- The name by which the result is told, usually a path. -/
  id : String
  text : List Char
  dialect : Option String := none
  deriving DecidableEq, Repr

/-- What the scan of a document came to. -/
structure DocumentResult where
  id : String
  dialect : Option String
  records : List Record := []
  diagnostics : List Diagnostic := []
  /-- Why the document was not scanned. -/
  error : Option String := none
  deriving DecidableEq, Repr

/-- Whether the document was scanned. -/
def DocumentResult.ok (result : DocumentResult) : Bool := result.error.isNone

namespace Document

/-- The name of the document's dialect: the one it says, if it is not empty,
or the one of its suffix. -/
def dialectName (document : Document) : Except RegistryError String :=
  match document.dialect.filter (!·.isEmpty) with
  | some name => .ok name
  | none => (Registry.standard.detectPath document.id).map Dialect.name

/-- The result of a document that could not be scanned. -/
def failed (document : Document) (error : String) : DocumentResult :=
  { id := document.id, dialect := document.dialect, error := some error }

/-- Scans a document by the dialect of the given name. -/
def scanAs (document : Document) (name : String) (options : ScanOptions) :
    DocumentResult :=
  match Dialect.ofName? name with
  | none => document.failed (Dialect.unknownMessage name)
  | some dialect =>
    match dialect.rules.scan options document.text with
    | .error e => document.failed e.message
    | .ok result =>
      { id := document.id
        dialect := some name
        records := result.records
        diagnostics := result.diagnostics }

/-- Scans a document. Settings that are refused are the document's error; only
a fault in them is the caller's. -/
def scan (document : Document) (settings : ScanSettings) :
    Except SettingsError DocumentResult :=
  match document.dialectName with
  | .error e => .ok (document.failed e.message)
  | .ok name =>
    match settings.check with
    | .ok options => .ok (document.scanAs name options)
    | .error e =>
      if e.isFault then .error e else .ok (document.failed e.message)

end Document

/-- A worker scans documents with settings that were installed, unless it is
given others. -/
structure Worker where
  installed : Option ScanSettings := none
  deriving Repr, Inhabited

/-- Installs settings, or the defaults if there are none. -/
def Worker.install (settings : Option ScanSettings) : Worker :=
  ⟨some (settings.getD {})⟩

/-- Scans a document with the given settings, else the installed ones, else
the defaults. -/
def Worker.scan (worker : Worker) (document : Document)
    (settings : Option ScanSettings) : Except SettingsError DocumentResult :=
  document.scan ((settings <|> worker.installed).getD {})

end Marginalia
