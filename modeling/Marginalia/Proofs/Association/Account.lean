/-
Every doc comment is accounted for.

A matcher puts out one record for each doc comment of its stream, in order
and with that comment, and none for any other comment: the weakest instance
of the run invariant, which only remembers whose window is open. For a scan
the stream is that of the text, so its records run through the doc comments
of the text, each once.
-/
import Marginalia.Proofs.Association.Stream
import Marginalia.Proofs.Scan.Applied
import Mathlib.Data.List.Forall2

namespace Marginalia

/-- A window belongs to the comment that opened it, and so does its record. -/
theorem commentLaw (reading : Reading) :
    WindowLaw reading (fun e w _ _ => w.comment = e.comment)
      (fun e record => record.comment = e.comment) where
  inner _ _ := rfl
  inHeader _ _ := rfl
  opens _ _ := rfl
  orphan _ _ _ _ h := h
  item e w t item items h := by
    split
    · exact h
    · rw [Window.passes_comment, h]
  ending _ _ _ h _ _ := h

/-- The comments of a run's records are the doc comments of its stream. -/
theorem run_comments (reading : Reading) (tracker : Tracker)
    (items : List Item) :
    (Matcher.run reading { tracker } items).records.map (·.comment)
      = items.filterMap Item.doc? := by
  have hpaired : List.Forall₂ (· = ·)
      ((Matcher.run reading { tracker } items).records.map (·.comment))
      ((encounters reading tracker items).map (·.comment)) := by
    rw [List.forall₂_map_left_iff, List.forall₂_map_right_iff]
    exact (run_records (commentLaw reading) tracker items).flip
  rw [List.forall₂_eq_eq_eq] at hpaired
  rw [hpaired, encounters_comments]

/-- Every stream has one record for each of its doc comments, in order, and
a scan has one for each doc comment of the text, in the order of the text. -/
theorem records_run_through_docs :
    (∀ (reading : Reading) (tracker : Tracker) (items : List Item),
      (Matcher.run reading { tracker } items).records.map (·.comment)
        = items.filterMap Item.doc?)
    ∧ ∀ (dialect : Dialect) (settings : ScanSettings) (options : ScanOptions),
      settings.check = .ok options → ∀ text : List Char,
        ∃ rules result, dialect.rules.withOptions options = .ok rules
          ∧ dialect.rules.scan options text = .ok result
          ∧ result.records.map (·.comment)
            = (rules.commentsOf text).filter (·.isDoc)
          ∧ (result.records.map (·.comment)).Pairwise fun c d =>
            c.start < d.start := by
  refine ⟨run_comments, fun dialect settings options hcheck text => ?_⟩
  obtain ⟨rules, result, hrules, hscan, hrecords⟩ := dialect.scan_ok hcheck text
  have hdocs : result.records.map (·.comment)
      = (rules.commentsOf text).filter (·.isDoc) := by
    rw [hrecords, run_comments, items_docs]
  refine ⟨rules, result, hrules, hscan, hdocs, ?_⟩
  rw [hdocs]
  exact (commentsOf_increasing rules text).filter _

/-- An inner comment at a parameter of a documented function. -/
def innerAtParameter : List Char :=
  "/// a\nfn f(\n//! b\nx: u8) \x7b\x7d".toList

/-- The inner comment waits for the window before it. -/
theorem records_run_through_held_docs :
    ({} : ScanSettings).check = .ok {}
      ∧ ∃ result,
        Dialect.rust.rules.scan {} innerAtParameter = .ok result
          ∧ (result.records.map (·.comment)).map (·.start) = [0, 12] := by
  refine ⟨rfl, ?_⟩
  obtain ⟨rules, result, hrules, hscan, hdocs, -⟩ :=
    records_run_through_docs.2 .rust {} {} rfl innerAtParameter
  refine ⟨result, hscan, ?_⟩
  have happlied : Dialect.rust.rules = rules := Except.ok.inj hrules
  rw [← happlied] at hdocs
  rw [hdocs, Rules.commentsOf, Dialect.spans_eq]
  decide +kernel

end Marginalia
