/-
Batches: many documents, scanned one by one or by a pool of workers.

Results are collected in the order of the documents. An observer is told of
every tenth document and of the last, and may interrupt. If that happens to
a pool, or the pool fails in any other way, what was collected is dropped
and all documents are scanned again one by one; if it happens then, the
batch is given up.
-/
import Marginalia.Batch.Document

namespace Marginalia

/-- What an observer is told: so many of so many documents are done. -/
structure Progress where
  current : Nat
  total : Nat
  deriving DecidableEq, Repr

/-- The text of a report. -/
def Progress.message (progress : Progress) : String :=
  "Scanned " ++ toString progress.current ++ " documents"

/-- An observer sees all reports so far, the newest last, and says whether to
interrupt. -/
abbrev Observer := List Progress → Bool

-- =========================================================== results

/-- What a batch came to. -/
structure BatchResult where
  documents : List DocumentResult := []
  /-- The names of the documents that were not scanned. -/
  failed : List String := []
  deriving DecidableEq, Repr

namespace BatchResult

/-- The result with one more document's; an error that says nothing does not
count as one. -/
def collect (result : BatchResult) (output : DocumentResult) : BatchResult :=
  { documents := result.documents ++ [output]
    failed :=
      if output.error.any (!·.isEmpty) then result.failed ++ [output.id]
      else result.failed }

/-- The number of records of all documents. -/
def totalRecords (result : BatchResult) : Nat :=
  (result.documents.flatMap (·.records)).length

/-- The number of diagnostics of all documents. -/
def totalDiagnostics (result : BatchResult) : Nat :=
  (result.documents.flatMap (·.diagnostics)).length

end BatchResult

-- ======================================================== collecting

/-- Why a batch was not finished. -/
inductive BatchStop where
  | interrupted
  | fault (error : SettingsError)
  deriving Repr

/-- A batch that was run: what it came to, or why it was not finished, and the
reports that were made. -/
structure BatchRun where
  outcome : Except BatchStop BatchResult
  reports : List Progress
  deriving Repr

/-- Whether a report is due after so many documents. -/
def reportsAt (current total : Nat) : Bool :=
  current % 10 == 0 || current == total

/-- Collects outputs as they come in, after `done` others that came to
`result`, and reports on them. A fault or an interruption ends it. -/
def collectAll (observer : Observer) (total : Nat) (done : Nat)
    (result : BatchResult) (reports : List Progress) :
    List (Except SettingsError DocumentResult) → BatchRun
  | [] => ⟨.ok result, reports⟩
  | .error e :: _ => ⟨.error (.fault e), reports⟩
  | .ok output :: outputs =>
    let current := done + 1
    let result := result.collect output
    if reportsAt current total then
      let reports := reports ++ [⟨current, total⟩]
      if observer reports then ⟨.error .interrupted, reports⟩
      else collectAll observer total current result reports outputs
    else collectAll observer total current result reports outputs

-- ============================================================== runs

/-- How a pool of workers fares. -/
inductive Pool where
  | completes
  | cannotStart
  /-- It fails after delivering so many outputs. -/
  | failsAfter (delivered : Nat)
  deriving DecidableEq, Repr

/-- What a pool delivers of the outputs of its workers. -/
def Pool.delivered {α : Type} (outputs : List α) : Pool → List α
  | completes => outputs
  | cannotStart => []
  | failsAfter n => outputs.take n

/-- Scans the documents one by one, after some reports. The worker is given
the settings with each document. -/
def runSequential (observer : Observer) (worker : Worker) (scan : ScanSettings)
    (reports : List Progress) (documents : List Document) : BatchRun :=
  collectAll observer documents.length 0 {} reports
    (documents.map (worker.scan · (some scan)))

/-- Scans the documents with a pool, and again one by one if that fails. The
workers of a pool have the settings installed. -/
def runPooled (observer : Observer) (pool : Pool) (worker : Worker)
    (scan : ScanSettings) (documents : List Document) : BatchRun :=
  let pooled := Worker.install (some scan)
  let run := collectAll observer documents.length 0 {} []
    (pool.delivered (documents.map (pooled.scan · none)))
  match pool, run.outcome with
  | .completes, .ok _ => run
  | _, _ => runSequential observer worker scan run.reports documents

/-- Runs a batch, with a worker at hand that may have other settings installed.
Both sections of the batch's settings are checked first. -/
def runBatch (worker : Worker) (scan : ScanSettings) (batch : BatchSettings)
    (observer : Observer) (pool : Pool) (documents : List Document) :
    Except SettingsError BatchRun := do
  let _ ← scan.validated
  let options ← batch.check
  if options.pooled && 1 < documents.length then
    return runPooled observer pool worker scan documents
  else return runSequential observer worker scan [] documents

end Marginalia
