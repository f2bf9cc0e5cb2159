/-
What the statement that makes a declaration gives it.

A declaration starts at a token of the stream, which may have waited on the
stack while a body was read (`declarations_start`). Its kind goes by the
innermost scope of its own path that is no block (`target_kinds_fit_owner`):
the kind is chosen by the declaration on top of the stack and the path is
built from all of it, and `pathOf_owner` says that the two agree however many
blocks lie between.
-/
import Marginalia.Proofs.Association.Enclosing
import Marginalia.Proofs.Association.Following

namespace Marginalia

-- ============================================================ starts

/-- A token with the property starts at the offset. -/
def StartsToken (P : Token → Prop) (offset : Nat) : Prop :=
  ∃ token, P token ∧ token.start = offset

/-- A declaration starts at a token of the stream, on the line of that token. -/
theorem declarations_start {reading : Reading} {items : List Item} {site : Site}
    {around : List Site} (h : (site, around) ∈ declarations reading {} items) :
    StartsToken (fun token => .token token ∈ items) site.start
      ∧ site.line = reading.scopeLines.lineOf site.start := by
  obtain ⟨t, terminator, hholds, hdeclared, -⟩ :=
    declarations_made (P := HoldsAbove (fun token => .token token ∈ items) [])
      (fun t ht => ht.cleared) items {} (HoldsAbove.empty _)
      (fun token hmem t ht =>
        (Tracker.feedToken_step ..).holdsAbove hmem List.nil_suffix ht) h
  obtain ⟨token, hmem, hstart⟩ := Tracker.declared?_start hdeclared
  refine ⟨⟨token, hholds.1 token hmem, hstart⟩, ?_⟩
  obtain ⟨found, -, rfl⟩ := Option.map_eq_some_iff.1 hdeclared
  rfl

-- ============================================================= kinds

/-- The innermost scope of a path that is no block. -/
def owner? (path : List ScopeRef) : Option ScopeRef :=
  path.reverse.find? (·.kind != .block)

/-- The kind of a function goes by its name and by the scope that owns it. -/
structure DeclarationKind.Fits (kind : DeclarationKind) (name : String)
    (owner : ScopeKind) : Prop where
  anonymous : kind = .anonymousFunction ↔
    name = "" ∨ owner = .function ∨ owner = .anonymousFunction
  method : kind = .method ↔ name ≠ "" ∧ owner = .classLike
  function : kind = .function ↔ name ≠ "" ∧ owner = .file

theorem owner?_snoc (path : List ScopeRef) (ref : ScopeRef) :
    owner? (path ++ [ref]) = if ref.kind = .block then owner? path
      else some ref := by
  rw [owner?, List.reverse_append, List.reverse_singleton,
    List.singleton_append, List.find?_cons]
  by_cases hblock : ref.kind = .block
  · rw [if_pos hblock, hblock]
    rfl
  · rw [if_neg hblock, bne_iff_ne.2 hblock]

theorem owner?_ne_block {path : List ScopeRef} {owner : ScopeRef}
    (h : owner? path = some owner) : owner.kind ≠ .block := by
  rw [owner?, List.find?_eq_some_iff_append] at h
  exact bne_iff_ne.1 h.1

/-- The path of a stack has an owner, the body of the innermost declaration on
the stack or the file. -/
theorem pathOf_owner (levels : List Level) :
    ∃ owner, owner? (pathOf levels) = some owner
      ∧ owner.kind
        = ((levels.findSome? (·.opening.site?)).map (·.kind.scopeKind)).getD
          .file := by
  induction levels with
  | nil => exact ⟨Frame.file.ref, rfl, rfl⟩
  | cons level levels ih =>
      rw [pathOf_cons, owner?_snoc, List.findSome?_cons]
      cases ho : level.opening with
      | block brace => exact ih
      | declaration site =>
          have hbody : (Opening.declaration site).frame.ref.kind ≠ .block :=
            site.kind.scopeKind_ne_block
          rw [if_neg hbody]
          exact ⟨_, rfl, rfl⟩

/-- The scope that a declaration's kind goes by is the owner of its path. -/
theorem Tracker.path_owner (t : Tracker) :
    ∃ owner, owner? t.path = some owner ∧ owner.kind = t.enclosingKind := by
  rw [Tracker.path_eq]
  exact pathOf_owner t.levels

/-- The header of a function gives it the kind that fits the scope around it. -/
theorem HeaderMatch.declarationKind_fits (found : HeaderMatch)
    {enclosing : ScopeKind} (hblock : enclosing ≠ .block)
    (h : found.declarationKind enclosing ≠ .classLike) :
    (found.declarationKind enclosing).Fits found.name enclosing := by
  obtain ⟨shape, name, start⟩ := found
  cases shape with
  | classLike => exact absurd rfl h
  | function =>
      by_cases hname : name = ""
      · subst hname
        constructor <;> simp [declarationKind]
      · cases enclosing with
        | block => exact absurd rfl hblock
        | file | classLike | function | anonymousFunction =>
            constructor <;> simp [declarationKind, hname]

/-- A statement makes a declaration whose kind fits the owner of its path. -/
theorem Tracker.declared?_kind {rules : Rules} {lines : Text.Lines}
    {t : Tracker} {terminator : Terminator} {site : Site}
    (h : t.declared? rules lines terminator = some site) :
    ∃ owner, owner? site.path = some owner
      ∧ (site.kind ≠ .classLike → site.kind.Fits site.name owner.kind) := by
  obtain ⟨owner, howner, hkind⟩ := t.path_owner
  refine ⟨owner, by rw [Tracker.declared?_path h, howner], fun hfunction => ?_⟩
  have hblock : t.enclosingKind ≠ .block := hkind ▸ owner?_ne_block howner
  obtain ⟨found, -, rfl⟩ := Option.map_eq_some_iff.1 h
  rw [hkind]
  exact found.declarationKind_fits hblock hfunction

-- =========================================================== targets

/-- What a record documents has the kind that its own path gives it. -/
theorem target_kinds_fit_owner (dialect : Dialect) (settings : ScanSettings)
    (options : ScanOptions) (hcheck : settings.check = .ok options)
    (text : List Char) :
    ∃ result, dialect.rules.scan options text = .ok result
      ∧ ∀ record ∈ result.records, ∀ site, record.target = some site →
        ∃ owner, owner? site.path = some owner
          ∧ (site.kind ≠ .classLike → site.kind.Fits site.name owner.kind) := by
  obtain ⟨rules, result, -, hscan, hrecords⟩ := dialect.scan_ok hcheck text
  refine ⟨result, hscan, fun record hmem site hsite => ?_⟩
  rw [hrecords] at hmem
  obtain ⟨around, hdeclared⟩ := run_declared hmem hsite
  obtain ⟨t, terminator, -, hmade, -⟩ :=
    declarations_made (P := fun _ => True) (fun _ _ => trivial) _ {} trivial
      (fun _ _ _ _ => trivial) hdeclared
  exact Tracker.declared?_kind hmade

/-- A documented function in a block of another one. -/
def functionInBlock : List Char :=
  "f()\x7b\x7b\n///a\ng()\x7b\x7d\x7d\x7d".toList

/-- A named function in a block of another one is local, the block aside. -/
theorem local_function_kind_fits_owner :
    ({} : ScanSettings).check = .ok {}
      ∧ ∃ result record site owner,
        Dialect.java.rules.scan {} functionInBlock = .ok result
          ∧ record ∈ result.records ∧ record.target = some site
          ∧ site.name = "g"
          ∧ site.path = [⟨.file, ""⟩, ⟨.function, "f"⟩, ⟨.block, ""⟩]
          ∧ owner? site.path = some owner ∧ owner = ⟨.function, "f"⟩
          ∧ site.kind.Fits site.name owner.kind := by
  obtain ⟨result, hscan, hfits⟩ :=
    target_kinds_fit_owner .java {} {} rfl functionInBlock
  have happlied : Dialect.java.rules.withOptions {} = .ok Dialect.java.rules :=
    rfl
  have htargets : result.records.map (·.target)
      = [some ⟨.anonymousFunction, "g", 11, 3,
          [⟨.file, ""⟩, ⟨.function, "f"⟩, ⟨.block, ""⟩]⟩] := by
    rw [scan_records happlied hscan, Dialect.items_eq]
    decide +kernel
  obtain ⟨record, hmem, htarget⟩ :=
    List.mem_map.1 (htargets.symm ▸ List.mem_singleton_self _)
  obtain ⟨owner, howner, hkind⟩ := hfits record hmem _ htarget
  have hnamed : owner = ⟨.function, "f"⟩ := (Option.some.inj howner).symm
  exact ⟨rfl, result, record, _, owner, hscan, hmem, htarget, rfl, rfl,
    howner, hnamed, hkind (by decide)⟩

end Marginalia
