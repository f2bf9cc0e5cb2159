/-
How the two tables of a registry go together.

# One change

Each change is said by what it does to the two views: the dialect of an
extension (`lookup_add`, `lookup_unregister`) and the extensions of a dialect
(`mem_extensions_add`, `extensions_unregister`). Nothing after them looks at
how the tables are kept.

# All changes

The dialect of an extension always has it among its own (`Covers`). The
converse is lost when an extension is given to a second dialect: the first
keeps it, and takes it along when it is taken out
(`moved_extension_leaves_with_former_dialect`). It is kept for every extension
that no dialect is given while it is another's (`Undisputed`), and for these
the tables are inverse to each other
(`registry_tables_inverse_where_undisputed`).
-/
import Marginalia.Dialect.Registry

namespace Marginalia.Registry

-- =========================================================== entries

/-- An entry that is set is found under its key, the others as before. -/
theorem lookup_setEntry {α β : Type} [BEq α] [LawfulBEq α] [DecidableEq α]
    (key other : α) (value : β) (entries : List (α × β)) :
    (setEntry key value entries).lookup other
      = if other = key then some value else entries.lookup other := by
  induction entries with
  | nil =>
      rw [setEntry, List.lookup_cons]
      by_cases h : other = key
      · rw [if_pos h, beq_iff_eq.2 h]
      · rw [if_neg h, beq_eq_false_iff_ne.2 h]
  | cons entry entries ih =>
      obtain ⟨k, v⟩ := entry
      rw [setEntry]
      by_cases hkey : k = key
      · rw [if_pos (beq_iff_eq.2 hkey), List.lookup_cons,
          List.lookup_cons, hkey]
        by_cases h : other = key
        · rw [if_pos h, beq_iff_eq.2 h]
        · rw [if_neg h, beq_eq_false_iff_ne.2 h]
      · rw [if_neg fun h => hkey (beq_iff_eq.1 h), List.lookup_cons,
          List.lookup_cons, ih]
        by_cases h : other = k
        · have hne : other ≠ key := fun heq => hkey (h.symm.trans heq)
          rw [if_neg hne, if_neg hne]
        · rw [beq_eq_false_iff_ne.2 h]

/-- What is kept by its key is looked up as before. -/
theorem lookup_filter {α β : Type} [BEq α] [LawfulBEq α] (keeps : α → Bool)
    (key : α) (entries : List (α × β)) :
    (entries.filter fun entry => keeps entry.1).lookup key
      = if keeps key = true then entries.lookup key else none := by
  induction entries with
  | nil => rw [List.filter_nil, List.lookup_nil, ite_self]
  | cons entry entries ih =>
      obtain ⟨k, v⟩ := entry
      rw [List.filter_cons]
      by_cases hkey : key = k
      · cases hkeeps : keeps k with
        | true =>
            rw [if_pos rfl, List.lookup_cons, List.lookup_cons,
              beq_iff_eq.2 hkey, hkey,
            if_pos hkeeps]
        | false =>
            rw [hkey, hkeeps] at ih
            rw [if_neg Bool.false_ne_true, hkey, ih, hkeeps]
            rfl
      · have hne : (key == k) = false := beq_eq_false_iff_ne.2 hkey
        cases hkeeps : keeps k with
        | true => rw [if_pos rfl, List.lookup_cons, List.lookup_cons, hne, ih]
        | false => rw [if_neg Bool.false_ne_true, List.lookup_cons, hne, ih]

-- ======================================================== one change

variable {registry : Registry} {x : String}

/-- An extension that is added belongs to its dialect, in lower case. -/
theorem lookup_add (registry : Registry) (dialect : Dialect)
    (extension x : String) :
    (registry.add dialect extension).owners.lookup x
      = if x = Text.toLower extension then some dialect
        else registry.owners.lookup x :=
  lookup_setEntry ..

theorem mem_extensions_add {dialect other : Dialect} {extension : String} :
    x ∈ (registry.add dialect extension).extensions other
      ↔ x ∈ registry.extensions other
        ∨ other = dialect ∧ x = Text.toLower extension := by
  have hextensions : (registry.add dialect extension).extensions other
      = if other = dialect then
          if (registry.extensions dialect).contains
              (Text.toLower extension) then
            registry.extensions dialect
          else registry.extensions dialect ++ [Text.toLower extension]
        else registry.extensions other := by
    unfold extensions add
    rw [lookup_setEntry]
    split <;> rfl
  rw [hextensions]
  by_cases hother : other = dialect
  · subst hother
    rw [if_pos rfl]
    by_cases hknown : (registry.extensions other).contains
      (Text.toLower extension) = true
    · rw [if_pos hknown]
      refine ⟨.inl, ?_⟩
      rintro (hmem | ⟨-, rfl⟩)
      · exact hmem
      · exact List.contains_iff_mem.1 hknown
    · rw [if_neg hknown, List.mem_append, List.mem_singleton]
      exact or_congr_right (iff_and_self.2 fun _ => rfl)
  · rw [if_neg hother]
    exact ⟨.inl, fun h => h.resolve_right fun h => hother h.1⟩

/-- A dialect that is taken out leaves its extensions to none, even those that
another has. -/
theorem lookup_unregister (registry : Registry) (dialect : Dialect)
    (x : String) :
    (registry.unregister dialect).owners.lookup x
      = if x ∈ registry.extensions dialect then none
        else registry.owners.lookup x := by
  have hfilter :=
    lookup_filter (fun e => !(registry.extensions dialect).contains e) x
    registry.owners
  refine hfilter.trans ?_
  by_cases hmem : x ∈ registry.extensions dialect
  · rw [if_pos hmem, if_neg]
    simpa using hmem
  · rw [if_neg hmem, if_pos]
    simpa using hmem

/-- It has no extensions then, and the others keep theirs. -/
theorem extensions_unregister (registry : Registry) (dialect other : Dialect) :
    (registry.unregister dialect).extensions other
      = if other = dialect then [] else registry.extensions other := by
  have hfilter := lookup_filter (· != dialect) other registry.given
  unfold extensions
  rw [unregister, hfilter]
  by_cases hother : other = dialect
  · rw [if_pos hother, if_neg fun h => bne_iff_ne.1 h hother]
    rfl
  · rw [if_neg hother, if_pos (bne_iff_ne.2 hother)]

-- ======================================================= all changes

/-- The registries that arise: the empty one, the standard one and those of
documents, and what changes make of them. -/
inductive Reachable (reader : DocumentReader) : Registry → Prop where
  | empty : Reachable reader {}
  | standard : Reachable reader standard
  | document {text : List Char} {registry : Registry}
      (read : ofTextBy reader text = .ok registry) : Reachable reader registry
  | register {registry : Registry} (dialect : Dialect)
    (extensions : List String)
      (before : Reachable reader registry) :
      Reachable reader (registry.register dialect extensions)
  | unregister {registry : Registry} (dialect : Dialect)
      (before : Reachable reader registry) :
      Reachable reader (registry.unregister dialect)

variable {reader : DocumentReader}

section Keeping

variable {P : Registry → Prop}

/-- What giving one extension keeps, giving several does. -/
theorem register_keeps {dialect : Dialect} (extensions : List String)
    (hadd : ∀ registry extension,
      P registry → P (registry.add dialect extension)) :
    ∀ registry, P registry → P (registry.register dialect extensions) := by
  induction extensions with
  | nil =>
      intro registry h
      exact h
  | cons extension extensions ih =>
      intro registry h
      exact ih _ (hadd registry extension h)

/-- What giving an extension keeps holds of the registry of a document. -/
theorem ofTextBy_keeps {text : List Char} {registry : Registry}
    (hread : ofTextBy reader text = .ok registry) (hempty : P {})
    (hadd : ∀ registry dialect extension,
      P registry → P (registry.add dialect extension)) :
    P registry := by
  have hentries : ∀ (entries : List (Value × Value)) (registry : Registry),
      P registry → P (entries.foldl addEntry registry) := by
    intro entries
    induction entries with
    | nil =>
        intro registry h
        exact h
    | cons entry entries ih =>
        intro registry h
        refine ih _ ?_
        unfold addEntry
        split
        · split
          · next dialect _ => exact register_keeps _ (hadd · dialect) registry h
          · exact h
        · exact h
  unfold ofTextBy at hread
  split at hread
  · cases hread
  · cases hread
  · rw [← Except.ok.inj hread]
    exact hempty
  · split at hread
    · rw [← Except.ok.inj hread]
      exact hentries _ _ hempty
    · cases hread
  · cases hread

/-- What giving an extension keeps holds of the standard registry. -/
theorem standard_keeps (hempty : P {})
    (hadd : ∀ registry dialect extension,
      P registry → P (registry.add dialect extension)) :
    P standard := by
  unfold standard
  simp only [List.foldl_cons, List.foldl_nil]
  iterate 8 refine register_keeps _ (hadd · _) _ ?_
  exact hempty

/-- What giving an extension and taking out a dialect keep holds of every
registry that arises. -/
theorem Reachable.keeps (h : Reachable reader registry) (hempty : P {})
    (hadd : ∀ registry dialect extension,
      P registry → P (registry.add dialect extension))
    (hunregister : ∀ registry dialect,
      P registry → P (registry.unregister dialect)) :
    P registry := by
  induction h with
  | empty => exact hempty
  | standard => exact standard_keeps hempty hadd
  | document read => exact ofTextBy_keeps read hempty hadd
  | register dialect extensions _ ih =>
      exact register_keeps _ (hadd · dialect) _ ih
  | unregister dialect _ ih => exact hunregister _ dialect ih

end Keeping

/-- Every extension is among those of its dialect. -/
def Covers (registry : Registry) : Prop :=
  ∀ x dialect, registry.owners.lookup x = some dialect →
    x ∈ registry.extensions dialect

/-- The empty registry has no extensions. -/
theorem covers_empty : Covers {} := by
  intro x dialect h
  cases h

/-- An extension is added to both tables at once. -/
theorem Covers.add (h : registry.Covers) (dialect : Dialect)
    (extension : String) :
    (registry.add dialect extension).Covers := by
  intro x other hother
  rw [lookup_add] at hother
  rw [mem_extensions_add]
  by_cases hx : x = Text.toLower extension
  · rw [if_pos hx] at hother
    exact .inr ⟨(Option.some.inj hother).symm, hx⟩
  · rw [if_neg hx] at hother
    exact .inl (h x other hother)

/-- An extension that is left was not the dialect's own, so its dialect is
another and left too. -/
theorem Covers.unregister (h : registry.Covers) (dialect : Dialect) :
    (registry.unregister dialect).Covers := by
  intro x other hother
  rw [lookup_unregister] at hother
  by_cases hmem : x ∈ registry.extensions dialect
  · rw [if_pos hmem] at hother
    cases hother
  · rw [if_neg hmem] at hother
    have hx := h x other hother
    have hne : other ≠ dialect := by
      rintro rfl
      exact hmem hx
    rw [extensions_unregister, if_neg hne]
    exact hx

/-- So every registry that arises covers its extensions. -/
theorem Reachable.covers (h : Reachable reader registry) : registry.Covers :=
  h.keeps covers_empty (fun _ dialect extension h => h.add dialect extension)
    fun _ dialect h => h.unregister dialect

-- ========================================================== disputes

/-- No dialect was given the extension, which is in lower case, while it was
another's: not by a document, and not later. Once no dialect has it any more,
what was before does not count. -/
inductive Undisputed (reader : DocumentReader) (x : String) :
    Registry → Prop where
  | released {registry : Registry} (reached : Reachable reader registry)
      (free : ∀ dialect, x ∉ registry.extensions dialect) :
      Undisputed reader x registry
  | standard : Undisputed reader x standard
  | document {text : List Char} {registry : Registry}
      (read : ofTextBy reader text = .ok registry)
      (once : ∀ dialect other, x ∈ registry.extensions dialect →
        x ∈ registry.extensions other → dialect = other) :
      Undisputed reader x registry
  | register {registry : Registry} (dialect : Dialect)
    (extensions : List String)
      (before : Undisputed reader x registry)
      (free : ∀ extension ∈ extensions, Text.toLower extension = x →
        registry.detect extension = none
          ∨ registry.detect extension = some dialect) :
      Undisputed reader x (registry.register dialect extensions)
  | unregister {registry : Registry} (dialect : Dialect)
      (before : Undisputed reader x registry) :
      Undisputed reader x (registry.unregister dialect)

/-- Whoever has the extension is its dialect. -/
def OwnedAt (x : String) (registry : Registry) : Prop :=
  ∀ dialect, x ∈ registry.extensions dialect →
    registry.owners.lookup x = some dialect

/-- A dialect may be given an extension that is free or its own. -/
theorem OwnedAt.add {dialect : Dialect} {extension : String}
    (h : OwnedAt x registry) (hfree : Text.toLower extension = x →
      registry.owners.lookup x = none
        ∨ registry.owners.lookup x = some dialect) :
    OwnedAt x (registry.add dialect extension) := by
  intro other hother
  rw [lookup_add]
  rcases mem_extensions_add.1 hother with hmem | ⟨rfl, rfl⟩
  · have howner := h other hmem
    by_cases hx : x = Text.toLower extension
    · rw [if_pos hx]
      rcases hfree hx.symm with hnone | hsome
      · rw [howner] at hnone
        cases hnone
      · exact hsome.symm.trans howner
    · rw [if_neg hx]
      exact howner
  · rw [if_pos rfl]

theorem OwnedAt.register {dialect : Dialect} (extensions : List String) :
    ∀ {registry : Registry}, OwnedAt x registry →
      (∀ extension ∈ extensions, Text.toLower extension = x →
        registry.owners.lookup x = none
          ∨ registry.owners.lookup x = some dialect) →
      OwnedAt x (registry.register dialect extensions) := by
  induction extensions with
  | nil =>
      intro registry h _
      exact h
  | cons first extensions ih =>
      intro registry h hfree
      refine ih (h.add (hfree first List.mem_cons_self))
        fun extension hmem hx => ?_
      rw [lookup_add]
      split
      · exact .inr rfl
      · exact hfree extension (List.mem_cons_of_mem first hmem) hx

/-- A dialect that is taken out takes only what it is the dialect of. -/
theorem OwnedAt.unregister (h : OwnedAt x registry) (dialect : Dialect) :
    OwnedAt x (registry.unregister dialect) := by
  intro other hother
  rw [extensions_unregister] at hother
  split at hother
  · cases hother
  · next hne =>
    have howner := h other hother
    rw [lookup_unregister, if_neg]
    · exact howner
    · intro hmem
      exact hne (Option.some.inj (howner.symm.trans (h dialect hmem)))

/-- Without a dialect taken out, whoever has an extension shares it at most
with its dialect. -/
theorem ofTextBy_known {text : List Char}
    (hread : ofTextBy reader text = .ok registry) :
    registry.Covers ∧ ∀ x dialect, x ∈ registry.extensions dialect →
      ∃ owner, registry.owners.lookup x = some owner := by
  refine ofTextBy_keeps
    (P := fun registry => registry.Covers ∧ ∀ x dialect,
      x ∈ registry.extensions dialect →
      ∃ owner, registry.owners.lookup x = some owner) hread
    ⟨covers_empty, fun x dialect h => absurd h List.not_mem_nil⟩
      fun registry dialect extension h =>
    ⟨h.1.add dialect extension, fun x other hother => ?_⟩
  rw [lookup_add]
  by_cases hx : x = Text.toLower extension
  · exact ⟨dialect, if_pos hx⟩
  · rw [if_neg hx]
    rcases mem_extensions_add.1 hother with hmem | ⟨-, hlower⟩
    · exact h.2 x other hmem
    · exact absurd hlower hx

/-- The standard registry gives no extension twice. -/
theorem standard_owned (x : String) : OwnedAt x standard := by
  have hall : ∀ dialect, ∀ x ∈ standard.extensions dialect,
      standard.owners.lookup x = some dialect := by
    intro dialect
    cases dialect <;> decide +kernel
  exact fun dialect hmem => hall dialect x hmem

/-- While it is undisputed, whoever has an extension is its dialect. -/
theorem Undisputed.owned (h : Undisputed reader x registry) :
    OwnedAt x registry := by
  induction h with
  | released _ free => exact fun dialect hmem => absurd hmem (free dialect)
  | standard => exact standard_owned x
  | document read once =>
      intro dialect hmem
      obtain ⟨hcovers, hknown⟩ := ofTextBy_known read
      obtain ⟨owner, howner⟩ := hknown x dialect hmem
      rw [howner, once dialect owner hmem (hcovers x owner howner)]
  | register dialect extensions _ free ih =>
      refine ih.register extensions fun extension hmem hx => ?_
      have howner := free extension hmem hx
      rw [detect, hx] at howner
      exact howner
  | unregister dialect _ ih => exact ih.unregister dialect

/-- Whatever reads documents: in every registry that arises, the dialect of an
extension has it among its extensions, and taking out a dialect takes out the
extensions it has and no others. An extension that no dialect was given while it
was another's is among those of its dialect only, and stays when any other
dialect is taken out. -/
theorem registry_tables_inverse_where_undisputed (reader : DocumentReader)
    (registry : Registry) (hreached : Reachable reader registry) :
    (∀ extension dialect, registry.detect extension = some dialect →
      Text.toLower extension ∈ registry.extensions dialect)
    ∧ (∀ dialect extension, (registry.unregister dialect).detect extension
      = if Text.toLower extension ∈ registry.extensions dialect then none
        else registry.detect extension)
    ∧ ∀ extension, Undisputed reader (Text.toLower extension) registry →
      (∀ dialect, Text.toLower extension ∈ registry.extensions dialect
        ↔ registry.detect extension = some dialect)
      ∧ ∀ dialect, registry.detect extension ≠ some dialect →
        (registry.unregister dialect).detect extension
          = registry.detect extension := by
  refine ⟨fun extension => hreached.covers (Text.toLower extension), ?_, ?_⟩
  · exact fun dialect extension => lookup_unregister registry dialect _
  · intro extension h
    have hinverse : ∀ dialect,
        Text.toLower extension ∈ registry.extensions dialect
        ↔ registry.detect extension = some dialect :=
      fun dialect => ⟨h.owned dialect, hreached.covers _ dialect⟩
    refine ⟨hinverse, fun dialect hne => ?_⟩
    rw [detect, lookup_unregister,
      if_neg fun hmem => hne ((hinverse dialect).1 hmem)]
    rfl

/-- The standard registry, with a suffix of headers given to one dialect. -/
def withInlineHeaders : Registry := standard.register .cpp [".INL"]

/-- The suffix goes with its dialect, and the files of another dialect keep
theirs. -/
theorem header_suffix_undisputed :
    Reachable Yaml.read withInlineHeaders
      ∧ Undisputed Yaml.read ".inl" withInlineHeaders
      ∧ (".inl" ∈ withInlineHeaders.extensions .cpp
        ↔ withInlineHeaders.detect ".Inl" = some .cpp)
      ∧ Undisputed Yaml.read ".c" withInlineHeaders
      ∧ withInlineHeaders.detect ".C" ≠ some .cpp
      ∧ (withInlineHeaders.unregister .cpp).detect ".C"
        = withInlineHeaders.detect ".C" := by
  have hreached : Reachable Yaml.read withInlineHeaders :=
    .register .cpp [".INL"] .standard
  have hgiven : Undisputed Yaml.read ".inl" withInlineHeaders :=
    .register .cpp [".INL"] .standard (by decide +kernel)
  have hother : Undisputed Yaml.read ".c" withInlineHeaders :=
    .register .cpp [".INL"] .standard (by decide +kernel)
  have hne : withInlineHeaders.detect ".C" ≠ some .cpp := by decide +kernel
  obtain ⟨-, -, hundisputed⟩ :=
    registry_tables_inverse_where_undisputed Yaml.read withInlineHeaders
      hreached
  exact ⟨hreached, hgiven, (hundisputed ".Inl" hgiven).1 .cpp, hother, hne,
    (hundisputed ".C" hother).2 .cpp hne⟩

/-- An extension that is given to one dialect and then to another. -/
def movedExtension : Registry :=
  (({} : Registry).register .cpp [".x"]).register .c [".X"]

/-- Such an extension stays among those of the first dialect, and is lost to the
second when the first is taken out. -/
theorem moved_extension_leaves_with_former_dialect :
    Reachable Yaml.read movedExtension
      ∧ movedExtension.detect ".x" = some .c
      ∧ ".x" ∈ movedExtension.extensions .cpp
      ∧ (movedExtension.unregister .cpp).detect ".x" = none :=
  ⟨.register .c [".X"] (.register .cpp [".x"] .empty), by decide, by decide,
    by decide⟩

end Marginalia.Registry
