/-
Where the records of a scan sit.

A record has the depth of its comment's scopes. An outer comment that is
bound documents a declaration with just these scopes around it; an inner
comment documents the innermost declaration whose body it stands in, with
blocks at most in between, and nothing exactly when there is none.

The path is that of the tracker when the comment is dealt with, after the
line break in front of it has ended what it ends. The window closes much
later. That no scope at or below the comment's level is closed and opened
anew in between is in the run invariant of `Binding`; what the stack says of
the declarations on it is in `Nested`.
-/
import Marginalia.Proofs.Association.Account
import Marginalia.Proofs.Association.Binding
import Marginalia.Proofs.Association.Prefix
import Marginalia.Proofs.Scope.Nesting

namespace Marginalia

-- ======================================================== invariants

/-- Nesting is kept by every item. -/
theorem read_nested {reading : Reading} {tracker : Tracker} (item : Item)
    (h : Nested tracker.levels) : Nested (tracker.read reading item).1.levels :=
  read_keeps (P := fun t => Nested t.levels) (fun _ ht => ht)
    (fun _ token _ ht => Tracker.feedToken_nested token ht) h

/-- A waiting comment is bound to a declaration among its own scopes. -/
theorem pathLaw (reading : Reading) :
    BindingLaw reading (fun _ _ _ => True)
      (fun e site => site.path = e.tracker.path) where
  opens _ := trivial
  skip _ _ _ _ _ := trivial
  breaks _ _ _ _ := trivial
  feeds _ _ _ _ _ _ _ _ _ := trivial
  declares e t _ _ _ _ hlevels hdeclared := by
    rw [Tracker.declared?_path hdeclared, Tracker.path_eq, hlevels,
      ← Tracker.path_eq]

-- ========================================================= placement

/-- The scopes around a comment of the stream when it is dealt with. -/
def PathAt (reading : Reading) (items : List Item) (c : Comment)
    (path : List ScopeRef) : Prop :=
  ∃ before after, items = before ++ .comment c :: after
    ∧ path
      = ((Matcher.consume reading {} before).matcher.scopesAt reading c).path

/-- A record sits where the path of its comment says. -/
structure Placed (inside : List ScopeRef) (record : Record) : Prop where
  depth : record.depth = (Frame.file.ref :: inside).length
  /-- What an outer comment documents has just the comment's scopes around
  it. -/
  outer : record.comment.placement = .outer → ∀ site,
    record.target = some site →
    site.path = Frame.file.ref :: inside ∧ site.depth = record.depth
  /-- What an inner comment documents has the comment in its body, with only
  blocks in between. -/
  inner : record.comment.placement = .inner → ∀ site,
    record.target = some site →
    ∃ blocks, Frame.file.ref :: inside = site.path ++ site.ref :: blocks
      ∧ ∀ ref ∈ blocks, ref.kind = .block
  /-- An inner comment documents nothing exactly when it stands in blocks
  only. -/
  unbound : record.comment.placement = .inner →
    (record.target = none ↔ ∀ ref ∈ inside, ref.kind = .block)

/-- A record of an encounter with nested scopes sits where they say. -/
theorem Bound.placed {e : Encounter} {record : Record}
    (h : Bound (fun e site => site.path = e.tracker.path) e record)
    (hnested : Nested e.tracker.levels) :
    Placed e.tracker.path.tail record := by
  have hpath : Frame.file.ref :: e.tracker.path.tail = e.tracker.path := rfl
  have hdepth : record.depth = e.tracker.path.length := by
    rw [h.depth, Tracker.path_length]
  refine ⟨hdepth, fun houter site hsite => ?_, fun hinner site hsite => ?_,
    fun hinner => ?_⟩
  · have hsame : site.path = e.tracker.path :=
      h.outer (h.comment ▸ houter) site hsite
    refine ⟨hsame, ?_⟩
    rw [Site.depth, hsame, hdepth]
  · rw [h.inner (h.comment ▸ hinner)] at hsite
    rw [hpath]
    exact Tracker.enclosingSite_some hnested hsite
  · rw [h.inner (h.comment ▸ hinner)]
    exact Tracker.enclosingSite_none hnested

/-- A scan has a record for each doc comment, and each record sits where the
scopes around its comment say. -/
theorem records_placed_by_scopes (dialect : Dialect) (settings : ScanSettings)
    (options : ScanOptions) (hcheck : settings.check = .ok options)
    (text : List Char) :
    ∃ rules result, dialect.rules.withOptions options = .ok rules
      ∧ dialect.rules.scan options text = .ok result
      ∧ result.records.map (·.comment) = (rules.items text).filterMap Item.doc?
      ∧ ∀ record ∈ result.records, ∃ inside,
        PathAt (rules.reading options text) (rules.items text) record.comment
            (Frame.file.ref :: inside)
          ∧ Placed inside record := by
  obtain ⟨rules, result, hrules, hscan, hrecords⟩ := dialect.scan_ok hcheck text
  refine ⟨rules, result, hrules, hscan, by rw [hrecords, run_comments], ?_⟩
  intro record hmem
  rw [hrecords] at hmem
  obtain ⟨before, e, hsplit, he, htracker, hbound⟩ :=
    run_at_comment (pathLaw (rules.reading options text)).windowLaw _ hmem
  have hnested : Nested e.tracker.levels :=
    encounters_all (P := fun t => Nested t.levels)
      (fun _ item h => read_nested item h) _ {} trivial e he
  refine ⟨e.tracker.path.tail, ⟨before, e.rest, ?_, ?_⟩, hbound.placed hnested⟩
  · rw [hbound.comment]
    exact hsplit
  · rw [hbound.comment, ← htracker]
    rfl

/-- A documented method. -/
def documentedMethod : List Char :=
  "impl A \x7b\n/// f\nfn f() \x7b\x7d \x7d".toList

/-- A comment in the body of an `impl`. -/
theorem method_record_placed_by_scopes :
    ({} : ScanSettings).check = .ok {}
      ∧ ∃ result record inside,
        Dialect.rust.rules.scan {} documentedMethod = .ok result
          ∧ record ∈ result.records ∧ record.comment.start = 9
          ∧ PathAt
            (Dialect.rust.rules.reading {} documentedMethod)
            (Dialect.rust.rules.items documentedMethod)
            record.comment (Frame.file.ref :: inside)
          ∧ Placed inside record := by
  obtain ⟨rules, result, hrules, hscan, hdocs, hplaced⟩ :=
    records_placed_by_scopes .rust {} {} rfl documentedMethod
  have happlied : Dialect.rust.rules = rules := Except.ok.inj hrules
  rw [← happlied] at hdocs hplaced
  have hstarts : (result.records.map (·.comment)).map (·.start) = [9] := by
    rw [hdocs, Dialect.items_eq]
    decide +kernel
  rw [List.map_map] at hstarts
  obtain ⟨record, hmem, hstart⟩ :=
    List.mem_map.1 (hstarts.symm ▸ List.mem_singleton_self 9)
  obtain ⟨inside, hpath, hsits⟩ := hplaced record hmem
  exact ⟨rfl, result, record, inside, hscan, hmem, hstart, hpath, hsits⟩

end Marginalia
