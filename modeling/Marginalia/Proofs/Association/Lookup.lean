/-
Lookups and nesting.

A search goes down by keys: what it finds next is a documented declaration
whose path goes on from the key of the last one found, with no other
documented key in between. Keys are made of kinds and names only, so this is
compared here with what the declarations of the text really enclose.

In one direction names are enough. A documented declaration leads with its
key the names around everything inside it, so whatever is inside is reached
through that key and not past it (`documented_levels_are_not_skipped`).

In the other direction they are not. The key of a declaration that was found
is the key of some declaration around what is found next
(`lookups_descend_into_namesakes`), but a namesake may be that one, as with
two functions of one name of which only the first is documented
(`overload_found_inside_namesake`).
-/
import Marginalia.Proofs.Association.Enclosing

namespace Marginalia

-- ========================================================== children

theorem isChild_iff {site : Site} {parent : List ScopeRef}
    {documented : List (List ScopeRef)} :
    site.isChild parent documented = true ↔ parent <+: site.ancestry
      ∧ ∀ key ∈ documented,
        key <+: site.ancestry → key.length ≤ parent.length := by
  simp only [Site.isChild, Bool.and_eq_true, List.isPrefixOf_iff_prefix,
    List.all_eq_true, Bool.not_eq_true', ← Bool.not_eq_true, decide_eq_true_eq,
    not_and, Nat.not_lt]

/-- A documented key that leads to a child leads to the parent. -/
theorem isChild_through {site : Site} {parent key : List ScopeRef}
    {documented : List (List ScopeRef)}
    (h : site.isChild parent documented = true) (hkey : key ∈ documented)
    (hleads : key <+: site.ancestry) : key <+: parent := by
  obtain ⟨hparent, hbetween⟩ := isChild_iff.1 h
  exact List.prefix_of_prefix_length_le hleads hparent
    (hbetween key hkey hleads)

theorem mem_candidates_iff {sites : List Site} {parent : List ScopeRef}
    {term : String} {site : Site} :
    site ∈ candidates sites parent term ↔ site ∈ sites
      ∧ Text.occursIn term.toList site.name.toList = true
      ∧ site.isChild parent (sites.map (·.key)) = true := by
  rw [candidates, List.mem_filter, Bool.and_eq_true]

theorem mem_candidates {sites : List Site} {parent : List ScopeRef}
    {term : String} {site : Site} (h : site ∈ candidates sites parent term) :
    site ∈ sites ∧ site.isChild parent (sites.map (·.key)) = true := by
  obtain ⟨hmem, -, hchild⟩ := mem_candidates_iff.1 h
  exact ⟨hmem, hchild⟩

theorem mem_documentedSites {records : List Record} {site : Site} :
    site ∈ documentedSites records ↔ ∃ record ∈ records,
      record.target = some site := by
  rw [documentedSites, List.mem_eraseDups, List.mem_filterMap]

/-- A key is never empty: it ends in the declaration itself. -/
theorem Site.key_ne_nil (site : Site) : site.key ≠ [] := by
  simp [Site.key]

-- =========================================================== descent

/-- Whether a search came as far as the site: it found it, or it stopped with
the site among several. -/
def Lookup.Reaches (site : Site) : Lookup → Prop
  | .found selected _ => site = selected
  | .notFound _ => False
  | .ambiguous sites _ => site ∈ sites

/-- Where a search stops it has just selected what it reaches, from the parent
it started with or from a declaration that a shorter search finds. -/
theorem descend_reaches (records : List Record) (sites : List Site)
    {site : Site} (terms : List String) :
    ∀ (parent : List ScopeRef) (term : String),
      (descend records sites parent term terms).Reaches site →
      site ∈ candidates sites parent term
        ∨ ∃ front next found its, front ++ [next] <+: terms
          ∧ descend records sites parent term front = .found found its
          ∧ site ∈ candidates sites found.key next := by
  induction terms with
  | nil =>
      intro parent term h
      rw [descend] at h
      split at h
      · exact h.elim
      · next found hcandidates =>
        rw [hcandidates]
        exact .inl (List.mem_singleton.2 h)
      · exact .inl h
  | cons next terms ih =>
      intro parent term h
      rw [descend] at h
      split at h
      · exact h.elim
      · next found hcandidates =>
        refine .inr ?_
        rcases ih _ _ h with hmem | ⟨front, last, deeper, its, hleads,
          hfound, hmem⟩
        · refine ⟨[], next, found, records.filter (·.target == some found),
            List.prefix_append [next] terms, ?_, hmem⟩
          rw [descend, hcandidates]
        · refine ⟨next :: front, last, deeper, its, ?_, ?_, hmem⟩
          · exact List.cons_prefix_cons.2 ⟨rfl, hleads⟩
          · rw [descend, hcandidates]
            exact hfound
      · exact .inl h

/-- One more term goes on from what was found. -/
theorem descend_snoc (records : List Record) (sites : List Site) {found : Site}
    {its : List Record} (last : String) (terms : List String) :
    ∀ (parent : List ScopeRef) (term : String),
      descend records sites parent term terms = .found found its →
      descend records sites parent term (terms ++ [last])
        = descend records sites found.key last [] := by
  induction terms with
  | nil =>
      intro parent term h
      rw [descend] at h
      split at h
      · cases h
      · next site hcandidates =>
        injection h with hsite
        rw [List.nil_append, ← hsite]
        simp only [descend, hcandidates]
      · cases h
  | cons next terms ih =>
      intro parent term h
      rw [descend] at h
      split at h
      · cases h
      · next site hcandidates =>
        rw [List.cons_append, ← ih _ _ h]
        simp only [descend, hcandidates]
      · cases h

/-- What a search reaches was selected under the root, or under the key of a
declaration that a shorter search finds. -/
theorem find_reaches {records : List Record} {path : List String}
    {lookup : Lookup} {site : Site} (hfind : find records path = .ok lookup)
    (h : lookup.Reaches site) :
    ∃ parent next, site ∈ candidates (documentedSites records) parent next
      ∧ (parent = [] ∨ ∃ front found its, front ++ [next] <+: path
        ∧ find records front = .ok (.found found its)
        ∧ parent = found.key) := by
  cases path with
  | nil => cases hfind
  | cons term terms =>
      obtain rfl := Except.ok.inj hfind
      rcases descend_reaches records _ terms [] term h with
        hmem | ⟨front, next, found, its, hleads, hfound, hmem⟩
      · exact ⟨[], term, hmem, .inl rfl⟩
      · refine ⟨found.key, next, hmem,
          .inr ⟨term :: front, found, its, ?_, ?_, rfl⟩⟩
        · exact List.cons_prefix_cons.2 ⟨rfl, hleads⟩
        · exact congrArg Except.ok hfound

/-- What one more term finds was selected under what was found without it. -/
theorem find_snoc {records : List Record} {path : List String} {last : String}
    {found next : Site} {its others : List Record}
    (hfind : find records path = .ok (.found found its))
    (hnext : find records (path ++ [last]) = .ok (.found next others)) :
    next ∈ candidates (documentedSites records) found.key last := by
  cases path with
  | nil => cases hfind
  | cons term terms =>
      have hnext : descend records (documentedSites records) [] term
          (terms ++ [last])
          = .found next others := Except.ok.inj hnext
      rw [descend_snoc _ _ _ _ _ _ (Except.ok.inj hfind), descend] at hnext
      split at hnext
      · cases hnext
      · next site hcandidates =>
        injection hnext with hsite
        rw [hcandidates, hsite]
        exact List.mem_singleton_self _
      · cases hnext

-- ================================================= documented levels

/-- What stands inside a documented declaration is no child of anything that
the declaration's key does not lead to. -/
theorem Encloses.isChild_through {reading : Reading} {items : List Item}
    {outer inner : Site} {documented : List (List ScopeRef)}
    (h : Encloses reading items outer inner)
    (hdocumented : outer.key ∈ documented) {parent : List ScopeRef}
    (hchild : inner.isChild parent documented = true) : outer.key <+: parent :=
  Marginalia.isChild_through hchild hdocumented h.key_leads

/-- In a scan, the key of a documented declaration leads the names around
every target inside it. So such a target is no child of a parent above the
declaration, and every search that reaches it has found before, by fewer
terms, a declaration whose key goes on from that key or is it. -/
theorem documented_levels_are_not_skipped (dialect : Dialect)
    (settings : ScanSettings) (options : ScanOptions)
    (hcheck : settings.check = .ok options) (text : List Char) :
    ∃ rules result, dialect.rules.withOptions options = .ok rules
      ∧ dialect.rules.scan options text = .ok result
      ∧ ∀ outer inner, (∃ record ∈ result.records, record.target = some outer) →
        (∃ record ∈ result.records, record.target = some inner) →
        Encloses (rules.reading options text) (rules.items text) outer inner →
        outer.key <+: inner.ancestry
          ∧ (∀ parent, parent <+: outer.key → parent ≠ outer.key →
            inner.isChild parent ((documentedSites result.records).map (·.key))
              = false)
          ∧ ∀ path lookup, find result.records path = .ok lookup →
          lookup.Reaches inner →
            ∃ front last found its, front ++ [last] <+: path
              ∧ find result.records front = .ok (.found found its)
              ∧ outer.key <+: found.key := by
  obtain ⟨rules, result, hrules, hscan, -⟩ := dialect.scan_ok hcheck text
  refine ⟨rules, result, hrules, hscan,
    fun outer inner houter _ hencloses => ?_⟩
  have hdocumented : outer.key ∈ (documentedSites result.records).map (·.key) :=
    List.mem_map_of_mem (mem_documentedSites.2 houter)
  refine ⟨hencloses.key_leads, fun parent hleads hne => ?_,
    fun path lookup hfind hreaches => ?_⟩
  · rw [← Bool.not_eq_true]
    intro hchild
    have hback := hencloses.isChild_through hdocumented hchild
    exact hne
      (hleads.eq_of_length (Nat.le_antisymm hleads.length_le hback.length_le))
  · obtain ⟨parent, last, hmem, hparent⟩ := find_reaches hfind hreaches
    have hthrough :=
      hencloses.isChild_through hdocumented (mem_candidates hmem).2
    rcases hparent with rfl | ⟨front, found, its, hfront, hfound, rfl⟩
    · exact absurd (List.prefix_nil.1 hthrough) outer.key_ne_nil
    · exact ⟨front, last, found, its, hfront, hfound, hthrough⟩

namespace NestedClasses

/-- A documented class with another inside. -/
def text : List Char := "///a\nclass A\x7b\n///b\nclass B;\x7d".toList

def outer : Site := ⟨.classLike, "A", 5, 2, [⟨.file, ""⟩]⟩

def inner : Site := ⟨.classLike, "B", 19, 4, [⟨.file, ""⟩, ⟨.classLike, "A"⟩]⟩

def records : List Record :=
  [⟨⟨"a", .doc, 0, 4, .java, .line, .outer, 1⟩, some outer, 1⟩,
    ⟨⟨"b", .doc, 14, 18, .java, .line, .outer, 3⟩, some inner, 2⟩]

/-- What a scan records and what it declares, read together because both read
the same headers. -/
theorem read_eq :
    ((Matcher.run (Dialect.java.rules.reading {} text) {}
      (Dialect.java.rules.items text)).records,
      declarations (Dialect.java.rules.reading {} text) {}
        (Dialect.java.rules.items text))
      = (records, [(outer, []), (inner, [outer])]) := by
  rw [Dialect.items_eq]
  decide +kernel

end NestedClasses

open NestedClasses in
/-- A class inside a documented class is found through that class. -/
theorem documented_class_is_not_skipped :
    ({} : ScanSettings).check = .ok {}
      ∧ ∃ result its, Dialect.java.rules.scan {} text = .ok result
        ∧ Encloses (Dialect.java.rules.reading {} text)
          (Dialect.java.rules.items text) outer inner
        ∧ outer.key <+: inner.ancestry
        ∧ inner.isChild [] ((documentedSites result.records).map (·.key))
          = false
        ∧ find result.records ["A", "B"] = .ok (.found inner its)
        ∧ ∃ front last found its, front ++ [last] <+: ["A", "B"]
          ∧ find result.records front = .ok (.found found its)
          ∧ outer.key <+: found.key := by
  obtain ⟨hrun, hdeclarations⟩ := Prod.mk.inj read_eq
  obtain ⟨rules, result, hrules, hscan, hlevels⟩ :=
    documented_levels_are_not_skipped .java {} {} rfl text
  obtain rfl : Dialect.java.rules = rules := Except.ok.inj hrules
  have hrecords : result.records = records :=
    (scan_records hrules hscan).trans hrun
  have hencloses : Encloses (Dialect.java.rules.reading {} text)
      (Dialect.java.rules.items text) outer inner := by
    refine ⟨[outer], ?_, List.mem_singleton_self outer⟩
    rw [hdeclarations]
    exact List.mem_cons_of_mem _ (List.mem_singleton_self _)
  have hfind : find result.records ["A", "B"]
      = .ok (.found inner
        [⟨⟨"b", .doc, 14, 18, .java, .line, .outer, 3⟩, some inner, 2⟩]) := by
    rw [hrecords]
    decide
  obtain ⟨hkey, hchild, hsearch⟩ :=
    hlevels outer inner (by simp [hrecords, records])
    (by simp [hrecords, records]) hencloses
  exact ⟨rfl, result, _, hscan, hencloses, hkey,
    hchild [] List.nil_prefix outer.key_ne_nil.symm, hfind,
    hsearch _ _ hfind rfl⟩

-- ========================================================= namesakes

/-- In a scan, what one more term finds stands inside a declaration with the
key of what was found without it; where no other declaration of the text has
this key, inside that very one. -/
theorem lookups_descend_into_namesakes (dialect : Dialect)
    (settings : ScanSettings) (options : ScanOptions)
    (hcheck : settings.check = .ok options) (text : List Char) :
    ∃ rules result, dialect.rules.withOptions options = .ok rules
      ∧ dialect.rules.scan options text = .ok result
      ∧ ∀ path last found next its others,
        find result.records path = .ok (.found found its) →
        find result.records (path ++ [last]) = .ok (.found next others) →
        (∃ outer, Encloses (rules.reading options text) (rules.items text)
          outer next
          ∧ outer.key = found.key)
        ∧ ((∀ other around,
            (other, around) ∈ declarations (rules.reading options text) {}
              (rules.items text) →
            other.key = found.key → other = found) →
          Encloses (rules.reading options text) (rules.items text) found
            next) := by
  obtain ⟨rules, result, hrules, hscan, hrecords⟩ := dialect.scan_ok hcheck text
  refine ⟨rules, result, hrules, hscan,
    fun path last found next its others hfind hnext => ?_⟩
  obtain ⟨hsite, hchild⟩ := mem_candidates (find_snoc hfind hnext)
  obtain ⟨record, hmem, htarget⟩ := mem_documentedSites.1 hsite
  rw [hrecords] at hmem
  obtain ⟨around, hdeclared⟩ := run_declared hmem htarget
  obtain ⟨outer, hencloses, hkey⟩ :=
    encloses_of_leads hdeclared (isChild_iff.1 hchild).1 found.key_ne_nil
  refine ⟨⟨outer, hencloses, hkey⟩, fun honly => ?_⟩
  obtain ⟨around', hdeclared'⟩ := hencloses.declared
  rw [← honly outer around' hdeclared' hkey]
  exact hencloses

namespace Overloads

/-- A documented function, and another of the same name with a documented
class inside. -/
def text : List Char := "///a\nf(x)\x7b\x7df()\x7b\n///b\nclass B;\x7d".toList

def first : Site := ⟨.function, "f", 5, 2, [⟨.file, ""⟩]⟩

def second : Site := ⟨.function, "f", 11, 2, [⟨.file, ""⟩]⟩

def inside : Site := ⟨.classLike, "B", 21, 4, [⟨.file, ""⟩, ⟨.function, "f"⟩]⟩

def records : List Record :=
  [⟨⟨"a", .doc, 0, 4, .java, .line, .outer, 1⟩, some first, 1⟩,
    ⟨⟨"b", .doc, 16, 20, .java, .line, .outer, 3⟩, some inside, 2⟩]

theorem read_eq :
    ((Matcher.run (Dialect.java.rules.reading {} text) {}
      (Dialect.java.rules.items text)).records,
      declarations (Dialect.java.rules.reading {} text) {}
        (Dialect.java.rules.items text))
      = (records, [(first, []), (second, []), (inside, [second])]) := by
  rw [Dialect.items_eq]
  decide +kernel

/-- The documented function is found. -/
theorem find_first : ∃ its, find records ["f"] = .ok (.found first its) :=
  ⟨[⟨⟨"a", .doc, 0, 4, .java, .line, .outer, 1⟩, some first, 1⟩], by decide⟩

/-- And the class is found through it. -/
theorem find_inside :
    ∃ its, find records ["f", "B"] = .ok (.found inside its) :=
  ⟨[⟨⟨"b", .doc, 16, 20, .java, .line, .outer, 3⟩, some inside, 2⟩], by decide⟩

end Overloads

open Overloads in
/-- The class is found inside the second of two functions of one name, although
the search went by the first. -/
theorem overload_lends_key_to_namesake :
    ({} : ScanSettings).check = .ok {}
      ∧ ∃ result its others, Dialect.java.rules.scan {} text = .ok result
        ∧ find result.records ["f"] = .ok (.found first its)
        ∧ find result.records (["f"] ++ ["B"]) = .ok (.found inside others)
        ∧ ∃ outer, Encloses (Dialect.java.rules.reading {} text)
          (Dialect.java.rules.items text)
          outer inside ∧ outer.key = first.key := by
  obtain ⟨rules, result, hrules, hscan, hdescends⟩ :=
    lookups_descend_into_namesakes .java {} {} rfl text
  obtain rfl : Dialect.java.rules = rules := Except.ok.inj hrules
  have hrecords : result.records = records :=
    (scan_records hrules hscan).trans (Prod.mk.inj read_eq).1
  obtain ⟨its, hfirst⟩ := find_first
  obtain ⟨others, hinside⟩ := find_inside
  rw [← hrecords] at hfirst hinside
  exact ⟨rfl, result, its, others, hscan, hfirst, hinside,
    (hdescends ["f"] "B" first inside its others hfirst hinside).1⟩

open Overloads in
/-- Of two functions of one name the first is documented, and a class inside the
second is found through it. -/
theorem overload_found_inside_namesake :
    ∃ result its others, Dialect.java.rules.scan {} text = .ok result
      ∧ find result.records ["f"] = .ok (.found first its)
      ∧ find result.records (["f"] ++ ["B"]) = .ok (.found inside others)
      ∧ ¬ Encloses (Dialect.java.rules.reading {} text)
        (Dialect.java.rules.items text) first inside := by
  obtain ⟨hrun, hdeclarations⟩ := Prod.mk.inj read_eq
  have hcheck : ({} : ScanSettings).check = .ok {} := rfl
  obtain ⟨rules, result, hrules, hscan, hrecords⟩ :=
    Dialect.java.scan_ok hcheck text
  obtain rfl : Dialect.java.rules = rules := Except.ok.inj hrules
  rw [hrun] at hrecords
  obtain ⟨its, hfirst⟩ := find_first
  obtain ⟨others, hinside⟩ := find_inside
  rw [← hrecords] at hfirst hinside
  refine ⟨result, its, others, hscan, hfirst, hinside, ?_⟩
  rintro ⟨around, hdeclared, hmem⟩
  rw [hdeclarations] at hdeclared
  -- the class is declared once, in the second function
  have haround : around = [second] := by
    simpa [first, second, inside] using hdeclared
  rw [haround] at hmem
  exact absurd hmem (by decide)

end Marginalia
