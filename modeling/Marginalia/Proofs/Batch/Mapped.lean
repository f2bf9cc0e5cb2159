/-
A batch is the map of single scans, however it is run.

Three ways of running have to come to the same: a worker that is given the
settings with each document, a pool whose workers have them installed, and a
pool that is abandoned midway and replaced by the first. What a worker makes of
a document depends only on the settings it ends up with (`scan_given`,
`scan_installed`), so all three collect from one list of outputs, and
collecting them is an append (`collectAll_calm`). Nothing that an abandoned
pool delivered is part of the result, since the second run starts from an
empty one.

The names of failed documents are collected by whether an error says anything.
Every error of a single scan does (`Document.scan_checked`), so they are those
of the results that have an error.
-/
import Marginalia.Batch.Basic
import Marginalia.Proofs.Association.Stream
import Marginalia.Proofs.Scan.Applied

namespace Marginalia

-- ====================================================== one document

theorem append_ne_empty {s t : String} (h : s ≠ "") : s ++ t ≠ "" :=
  fun hnil => h (String.append_eq_empty_iff.1 hnil).1

/-- A path without a dialect is told by its suffix. -/
theorem Registry.detectPath_error {registry : Registry} {path : String}
    {e : RegistryError} (h : registry.detectPath path = .error e) :
    e.message ≠ "" := by
  unfold Registry.detectPath at h
  split at h
  · cases h
  · cases h
    exact append_ne_empty (append_ne_empty (by decide))

/-- An unknown dialect is told in words. -/
theorem Document.dialectName_error {document : Document} {e : RegistryError}
    (h : document.dialectName = .error e) : e.message ≠ "" := by
  unfold Document.dialectName at h
  split at h
  · cases h
  · cases hpath : Registry.standard.detectPath document.id with
    | ok dialect => rw [hpath] at h; cases h
    | error e' =>
        rw [hpath] at h
        cases h
        exact Registry.detectPath_error hpath

/-- An error of the result, if there is one, says something. -/
def DocumentResult.Tells (result : DocumentResult) : Prop :=
  ∀ e, result.error = some e → e ≠ ""

/-- A document that fails with words tells them. -/
theorem Document.failed_tells (document : Document) {error : String}
    (h : error ≠ "") :
    (document.failed error).Tells :=
  fun _ he => Option.some.inj he ▸ h

/-- Under checked settings a document always has a result. -/
theorem Document.scan_checked {settings : ScanSettings} {options : ScanOptions}
    (hcheck : settings.check = .ok options) (document : Document) :
    ∃ result, document.scan settings = .ok result ∧ result.id = document.id
      ∧ result.Tells := by
  unfold Document.scan
  cases hname : document.dialectName with
  | error e =>
      exact ⟨_, rfl, rfl,
        document.failed_tells (Document.dialectName_error hname)⟩
  | ok name =>
      simp only [hcheck]
      refine ⟨_, rfl, ?_⟩
      unfold Document.scanAs
      cases Dialect.ofName? name with
      | none =>
          refine ⟨rfl, document.failed_tells ?_⟩
          exact append_ne_empty (append_ne_empty (append_ne_empty (by decide)))
      | some dialect =>
          obtain ⟨rules, -, hscan⟩ := dialect.scan_index hcheck document.text
          simp only [hscan]
          exact ⟨trivial, fun _ he => nomatch he⟩

/-- With settings that were accepted, every document has a result under its
name, and a failure tells its error. -/
theorem scans_checked {settings : ScanSettings} {options : ScanOptions}
    (hcheck : settings.check = .ok options) (documents : List Document) :
    ∃ results : List DocumentResult,
      documents.map (·.scan settings) = results.map .ok
      ∧ results.map (·.id) = documents.map (·.id) ∧ ∀ result ∈ results,
        result.Tells := by
  induction documents with
  | nil => exact ⟨[], rfl, rfl, fun _ h => nomatch h⟩
  | cons document documents ih =>
      obtain ⟨result, hresult, hid, htells⟩ := document.scan_checked hcheck
      obtain ⟨results, hresults, hids, hall⟩ := ih
      refine ⟨result :: results, ?_, ?_, ?_⟩
      · rw [List.map_cons, List.map_cons, hresult, hresults]
      · rw [List.map_cons, List.map_cons, hid, hids]
      · exact List.forall_mem_cons.2 ⟨htells, hall⟩

-- =========================================================== workers

/-- Settings that are given count, whatever was installed. -/
theorem Worker.scan_given (worker : Worker) (document : Document)
    (settings : ScanSettings) :
    worker.scan document (some settings) = document.scan settings := rfl

/-- Settings that were installed count where none are given. -/
theorem Worker.scan_installed (document : Document) (settings : ScanSettings) :
    (Worker.install (some settings)).scan document none
      = document.scan settings := rfl

-- ======================================================== collecting

/-- The names of the documents whose results have an error. -/
def failedNames (results : List DocumentResult) : List String :=
  (results.filter (·.error.isSome)).map (·.id)

/-- The names of the documents that failed, in order. -/
theorem failedNames_cons (result : DocumentResult)
    (results : List DocumentResult) :
    failedNames (result :: results)
      = failedNames [result] ++ failedNames results := by
  simp only [failedNames, ← List.map_append, ← List.filter_append,
    List.singleton_append]

/-- A result is added to the documents, and to the failed ones if it tells
an error. -/
theorem BatchResult.collect_eq (result : BatchResult) {output : DocumentResult}
    (h : output.Tells) :
    result.collect output
      = ⟨result.documents ++ [output],
        result.failed ++ failedNames [output]⟩ := by
  unfold collect failedNames
  cases herror : output.error with
  | none => simp [herror]
  | some e =>
      have hne : e.isEmpty = false := by simpa using h e herror
      simp [herror, hne]

/-- An observer that never interrupts lets every output be collected. -/
theorem collectAll_calm {observer : Observer}
    (hcalm : ∀ reports, observer reports = false) (total : Nat)
    (outputs : List DocumentResult) :
    ∀ (done : Nat) (result : BatchResult) (reports : List Progress),
      (∀ output ∈ outputs, output.Tells) →
      (collectAll observer total done result reports (outputs.map .ok)).outcome
        = .ok ⟨result.documents ++ outputs,
          result.failed ++ failedNames outputs⟩ := by
  induction outputs with
  | nil =>
      intro done result reports _
      simp [collectAll, failedNames]
  | cons output outputs ih =>
      intro done result reports htell
      obtain ⟨htells, htell⟩ := List.forall_mem_cons.1 htell
      have hrest :=
        fun reports => ih (done + 1) (result.collect output) reports htell
      rw [result.collect_eq htells] at hrest
      simp only [List.append_assoc, List.singleton_append, ← failedNames_cons]
        at hrest
      -- a report may be due, but it only adds to the reports
      rw [List.map_cons, collectAll, result.collect_eq htells]
      simp only [hcalm, Bool.false_eq_true, if_false]
      split
      · exact hrest _
      · exact hrest _

-- ============================================================== runs

section

variable {observer : Observer} (hcalm : ∀ reports, observer reports = false)
  {settings : ScanSettings} {documents : List Document}
  {results : List DocumentResult}
  (hresults : documents.map (·.scan settings) = results.map .ok)
  (htell : ∀ result ∈ results, result.Tells)

include hcalm hresults htell

/-- One by one, the documents come to their single scans. -/
theorem runSequential_outcome (worker : Worker) (reports : List Progress) :
    (runSequential observer worker settings reports documents).outcome
      = .ok ⟨results, failedNames results⟩ := by
  simp only [runSequential, Worker.scan_given, hresults]
  exact collectAll_calm hcalm documents.length results 0 {} reports htell

/-- A pool comes to the same: to what it collects if it completes, and otherwise
to what is collected in its place. -/
theorem runPooled_outcome (pool : Pool) (worker : Worker) :
    (runPooled observer pool worker settings documents).outcome
      = .ok ⟨results, failedNames results⟩ := by
  have hagain := runSequential_outcome hcalm hresults htell worker
  cases pool with
  | completes =>
      have hpool := collectAll_calm hcalm documents.length results 0 {} [] htell
      simp only [runPooled, Worker.scan_installed, hresults, Pool.delivered]
      rw [hpool]
      exact hpool
  | cannotStart => exact hagain _
  | failsAfter delivered => exact hagain _

end

/-- However a batch is run, it comes to the single scans of its documents in
their order, and names those with an error. -/
theorem batch_maps_single_scans {scan : ScanSettings} {batch : BatchSettings}
    {options : ScanOptions} {batchOptions : BatchOptions}
    (hscan : scan.check = .ok options) (hbatch : batch.check = .ok batchOptions)
    (observer : Observer) (hcalm : ∀ reports, observer reports = false)
    (worker : Worker) (pool : Pool) (documents : List Document) :
    ∃ run results, runBatch worker scan batch observer pool documents = .ok run
      ∧ run.outcome = .ok ⟨results,
        (results.filter (·.error.isSome)).map (·.id)⟩
      ∧ results.map (·.id) = documents.map (·.id)
      ∧ ∀ alone : Worker,
        documents.map (alone.scan · (some scan)) = results.map .ok := by
  obtain ⟨results, hresults, hids, htell⟩ := scans_checked hscan documents
  by_cases hpooled :
    (batchOptions.pooled && decide (1 < documents.length)) = true
  · refine ⟨_, results, ?_,
      runPooled_outcome hcalm hresults htell pool worker, hids,
      fun _ => hresults⟩
    rw [runBatch, (check_eq_ok.1 hscan).1, hbatch]
    exact if_pos hpooled
  · refine ⟨_, results, ?_,
      runSequential_outcome hcalm hresults htell worker [], hids,
      fun _ => hresults⟩
    rw [runBatch, (check_eq_ok.1 hscan).1, hbatch]
    exact if_neg hpooled

/-- A documented class. -/
def documentedClass : List Char := "///a\nclass A;".toList

/-- A pool that fails after one of two documents, with a worker at hand that has
a window of one token installed: the second document has no dialect and is the
only one named, and the first is scanned with the batch's own window, which
reaches its declaration. -/
theorem abandoned_pool_maps_single_scans :
    ({ windowMaxTokens := .int 7 } : ScanSettings).check
        = .ok { window := 7, writtenWindow := "7" }
      ∧ ({} : BatchSettings).check = .ok ⟨true⟩
      ∧ ∃ run first second,
        runBatch ⟨some { windowMaxTokens := .int 1 }⟩
          { windowMaxTokens := .int 7 } {}
            (fun _ => false) (.failsAfter 1)
            [⟨"a", documentedClass, some "java"⟩, ⟨"b", [], none⟩]
          = .ok run
          ∧ run.outcome = .ok ⟨[first, second], ["b"]⟩
          ∧ first.records.map (·.isOrphan) = [false] := by
  have hscan : ({ windowMaxTokens := .int 7 } : ScanSettings).check
      = .ok { window := 7, writtenWindow := "7" } := rfl
  have hbatch : ({} : BatchSettings).check = .ok ⟨true⟩ := rfl
  obtain ⟨run, results, hrun, houtcome, hids, hsingle⟩ :=
    batch_maps_single_scans hscan hbatch (fun _ => false) (fun _ => rfl)
      ⟨some { windowMaxTokens := .int 1 }⟩ (.failsAfter 1)
      [⟨"a", documentedClass, some "java"⟩, ⟨"b", [], none⟩]
  -- the first scan binds its comment, and the second finds no dialect
  have hjava : Dialect.ofName? "java" = some .java := by decide +kernel
  have hnamed : Document.dialectName ⟨"a", documentedClass, some "java"⟩
      = .ok "java" := rfl
  have hnone : (Document.dialectName ⟨"b", [], none⟩).toOption = none := by
    decide +kernel
  obtain ⟨rules, hrules, hread⟩ := Dialect.java.scan_index hscan documentedClass
  have happlied : Dialect.java.rules = rules := Except.ok.inj hrules
  have horphans : (rules.index { window := 7, writtenWindow := "7" }
      documentedClass).result.records.map (·.isOrphan) = [false] := by
    rw [← happlied, index_records, Dialect.items_eq]
    decide +kernel
  have hsingle := hsingle {}
  simp only [List.map_cons, List.map_nil, Worker.scan_given, Document.scan,
    hnamed, hscan, Document.scanAs, hjava, hread] at hsingle
  cases hsecond : Document.dialectName ⟨"b", [], none⟩ with
  | ok name => rw [hsecond] at hnone; cases hnone
  | error e =>
      simp only [hsecond] at hsingle
      obtain ⟨first, results, rfl, hfirst, hrest⟩ :=
        List.map_eq_cons_iff.1 hsingle.symm
      obtain ⟨second, results, rfl, hlast, hnil⟩ := List.map_eq_cons_iff.1 hrest
      cases hfirst
      cases hlast
      cases List.map_eq_nil_iff.1 hnil
      exact ⟨hscan, hbatch, run, _, _, hrun, houtcome, horphans⟩

end Marginalia
