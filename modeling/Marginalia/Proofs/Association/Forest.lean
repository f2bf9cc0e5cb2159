/-
The documented declarations as a forest.

A search stands at the root or at the key of a documented declaration, and a
documented declaration is below such a place if its path goes on from there with
no other documented key in between. Frames without documentation and blocks are
passed over, keys repeat along a path where a class is nested in a namesake, and
several declarations may share a key. Still each has one place above it. All
places that lead to a declaration are prefixes of its ancestry and so lie one
behind the other, and only the longest has none between
(`isChild_iff_nearest`).

The place above is shorter than the key of the declaration itself, so places
above places end at the root (`exists_lineage`), and in one way only, since what
is above depends on nothing but the ancestry (`Lineage.unique`).
-/
import Marginalia.Proofs.Association.Lookup

namespace Marginalia

/-- Where a search may stand: at the root or at a documented key. -/
def IsPlace (documented : List (List ScopeRef)) (key : List ScopeRef) : Prop :=
  key = [] ∨ key ∈ documented

/-- The longest documented prefix of an ancestry, or the root if there is
none. -/
structure Nearest (documented : List (List ScopeRef))
    (ancestry parent : List ScopeRef) : Prop where
  place : IsPlace documented parent
  leads : parent <+: ancestry
  longest : ∀ key ∈ documented, key <+: ancestry → key <+: parent

/-- Key by key, the longer of two prefixes is kept. -/
theorem exists_nearest (documented : List (List ScopeRef))
    (ancestry : List ScopeRef) :
    ∃ parent, Nearest documented ancestry parent := by
  induction documented with
  | nil =>
      refine ⟨[], .inl rfl, List.nil_prefix, fun key hkey => ?_⟩
      cases hkey
  | cons key documented ih =>
      obtain ⟨parent, hplace, hleads, hlongest⟩ := ih
      have hplace : IsPlace (key :: documented) parent :=
        hplace.imp_right (List.mem_cons_of_mem _)
      by_cases hkey : key <+: ancestry
      · rcases List.prefix_or_prefix_of_prefix hkey hleads with hshort | hlong
        · exact ⟨parent, hplace, hleads,
            List.forall_mem_cons.2 ⟨fun _ => hshort, hlongest⟩⟩
        · refine ⟨key, .inr List.mem_cons_self, hkey,
            List.forall_mem_cons.2 ⟨fun h => ?_, ?_⟩⟩
          · exact List.prefix_refl key
          · exact fun other hother h => (hlongest other hother h).trans hlong
      · exact ⟨parent, hplace, hleads,
          List.forall_mem_cons.2 ⟨fun h => absurd h hkey, hlongest⟩⟩

/-- Of all places, a site is a child of the nearest. -/
theorem isChild_iff_nearest {documented : List (List ScopeRef)} {site : Site}
    {parent place : List ScopeRef} (h : Nearest documented site.ancestry parent)
    (hplace : IsPlace documented place) :
    site.isChild place documented = true ↔ place = parent := by
  rw [isChild_iff]
  constructor
  · rintro ⟨hleads, hbetween⟩
    have hshort : place <+: parent := by
      rcases hplace with rfl | hdocumented
      · exact List.nil_prefix
      · exact h.longest place hdocumented hleads
    have hlong : parent.length ≤ place.length := by
      rcases h.place with rfl | hdocumented
      · exact Nat.zero_le _
      · exact hbetween parent hdocumented h.leads
    exact hshort.eq_of_length_le hlong
  · rintro rfl
    exact ⟨h.leads, fun key hkey hleads =>
      (h.longest key hkey hleads).length_le⟩

/-- The nearest place is shorter than the site's own key. -/
theorem Nearest.length_lt {documented : List (List ScopeRef)} {site : Site}
    {parent : List ScopeRef} (h : Nearest documented site.ancestry parent) :
    parent.length < site.key.length := by
  have hle := h.leads.length_le
  rw [Site.key, List.length_append, List.length_singleton]
  omega

/-- Sites with one ancestry have one parent. -/
theorem parent_unique {documented : List (List ScopeRef)} {a b : Site}
    {p q : List ScopeRef} (h : a.ancestry = b.ancestry)
    (hp : IsPlace documented p) (hq : IsPlace documented q)
    (ha : a.isChild p documented = true) (hb : b.isChild q documented = true) :
    p = q := by
  obtain ⟨parent, hparent⟩ := exists_nearest documented a.ancestry
  have hp' := (isChild_iff_nearest hparent hp).1 ha
  rw [h] at hparent
  exact hp'.trans ((isChild_iff_nearest hparent hq).1 hb).symm

-- ========================================================== lineages

/-- The places above a site, from its parent to the root. -/
inductive Lineage (sites : List Site) : Site → List (List ScopeRef) → Prop where
  | root {site : Site} (child : site.isChild [] (sites.map (·.key)) = true) :
    Lineage sites site [[]]
  | under {site outer : Site} {places : List (List ScopeRef)}
    (documented : outer ∈ sites)
    (child : site.isChild outer.key (sites.map (·.key)) = true)
    (above : Lineage sites outer places) :
    Lineage sites site (outer.key :: places)

/-- Places above places end at the root, since each is shorter than the one
before. -/
theorem exists_lineage (sites : List Site) (site : Site) :
    ∃ places, Lineage sites site places := by
  induction hlength :
    site.key.length using Nat.strongRecOn generalizing site with
  | _ length ih =>
      obtain ⟨parent, hparent⟩ :=
        exists_nearest (sites.map (·.key)) site.ancestry
      have hchild := (isChild_iff_nearest hparent hparent.place).2 rfl
      rcases hparent.place with rfl | hdocumented
      · exact ⟨_, .root hchild⟩
      · obtain ⟨outer, houter, rfl⟩ := List.mem_map.1 hdocumented
        obtain ⟨places, hplaces⟩ := ih _ (hlength ▸ hparent.length_lt) outer rfl
        exact ⟨_, .under houter hchild hplaces⟩

/-- Sites with one ancestry have the same places above them. -/
theorem Lineage.unique {sites : List Site} {a b : Site}
    {places places' : List (List ScopeRef)} (ha : Lineage sites a places)
    (hb : Lineage sites b places') (h : a.ancestry = b.ancestry) :
    places = places' := by
  have hplace : ∀ {outer},
      outer ∈ sites → IsPlace (sites.map (·.key)) outer.key :=
    fun houter => .inr (List.mem_map_of_mem houter)
  induction ha generalizing b places' with
  | root child =>
      cases hb with
      | root => rfl
      | @under _ outer _ documented' child' _ =>
          have hkey :=
            parent_unique h (.inl rfl) (hplace documented') child child'
          exact absurd hkey.symm outer.key_ne_nil
  | @under a outer places documented child above ih =>
      cases hb with
      | root child' =>
          have hkey :=
            parent_unique h (hplace documented) (.inl rfl) child child'
          exact absurd hkey outer.key_ne_nil
      | @under _ outer' _ documented' child' above' =>
          have hkey :=
            parent_unique h (hplace documented) (hplace documented')
              child child'
          -- the two may be different sites, but what is around them is the same
          rw [hkey, ih above' (List.append_inj' hkey rfl).1]

-- ============================================================ forest

/-- What a search finds is documented. -/
theorem find_documented {records : List Record} {path : List String}
    {found : Site} {its : List Record}
    (h : find records path = .ok (.found found its)) :
    found ∈ documentedSites records := by
  have hreaches : (Lookup.found found its).Reaches found := rfl
  obtain ⟨parent, next, hmem, -⟩ := find_reaches h hreaches
  exact (mem_candidates hmem).1

/-- Each documented declaration has one parent among the root and the documented
keys: the longest documented prefix of its ancestry. The parent is shorter than
the key of the declaration, and from parent to parent one comes to the root, in
one way. At all these places, a search considers the declaration at its parent
only, and there for every piece of its name; so a search that reaches it came by
its parent. -/
theorem documented_declarations_form_forest (records : List Record) :
    let sites := documentedSites records
    let documented := sites.map (·.key)
    ∀ site ∈ sites, ∃ parent, Nearest documented site.ancestry parent
      ∧ (∀ place, IsPlace documented place →
        (site.isChild place documented = true ↔ place = parent))
      ∧ parent.length < site.key.length
      ∧ (∃! places, Lineage sites site places)
      ∧ (∀ place term, IsPlace documented place →
        (site ∈ candidates sites place term
          ↔ place = parent ∧ Text.occursIn term.toList site.name.toList = true))
      ∧ ∀ path lookup, find records path = .ok lookup → lookup.Reaches site →
        parent = [] ∨ ∃ front next found its, front ++ [next] <+: path
          ∧ find records front = .ok (.found found its)
          ∧ parent = found.key := by
  intro sites documented site _
  obtain ⟨parent, hparent⟩ := exists_nearest documented site.ancestry
  obtain ⟨places, hplaces⟩ := exists_lineage sites site
  refine ⟨parent, hparent, fun place => isChild_iff_nearest hparent,
    hparent.length_lt,
    ⟨places, hplaces, fun other hother => hother.unique hplaces rfl⟩,
      fun place term hplace => ?_, fun path lookup hfind hreaches => ?_⟩
  · rw [mem_candidates_iff, isChild_iff_nearest hparent hplace]
    tauto
  · obtain ⟨place, next, hmem, hstands⟩ := find_reaches hfind hreaches
    have hplace : IsPlace documented place := by
      rcases hstands with rfl | ⟨front, found, its, -, hfound, rfl⟩
      · exact .inl rfl
      · exact .inr (List.mem_map_of_mem (find_documented hfound))
    obtain rfl := (isChild_iff_nearest hparent hplace).1 (mem_candidates hmem).2
    exact hstands.imp_right fun ⟨front, found, its, hfront, hfound, hkey⟩ =>
      ⟨front, next, found, its, hfront, hfound, hkey⟩

namespace Namesakes

/-- A class, and a namesake of it inside one of its functions, with a method. -/
def outer : Site := ⟨.classLike, "A", 0, 1, [⟨.file, ""⟩]⟩

def nested : Site :=
  ⟨.classLike, "A", 20, 3,
    [⟨.file, ""⟩, ⟨.classLike, "A"⟩, ⟨.function, "f"⟩, ⟨.block, ""⟩]⟩

def method : Site :=
  ⟨.method, "m", 40, 5,
    [⟨.file, ""⟩, ⟨.classLike, "A"⟩, ⟨.function, "f"⟩, ⟨.block, ""⟩,
     ⟨.classLike, "A"⟩]⟩

/-- All are documented but the function. -/
def records : List Record :=
  [outer, nested, method].map fun site =>
    ⟨{ text := "", style := .doc, start := site.start, stop := site.start,
       dialect := .java }, some site, site.depth⟩

end Namesakes

open Namesakes in
/-- The method hangs below the nested class, and that below its namesake; the
function between them and its block count for nothing. -/
theorem method_hangs_below_namesakes :
    method ∈ documentedSites records
      ∧ (∀ place, IsPlace ((documentedSites records).map (·.key)) place →
        (method.isChild place ((documentedSites records).map (·.key)) = true
          ↔ place = nested.key))
      ∧ ∀ places, Lineage (documentedSites records) method places
        → places = [nested.key, outer.key, []] := by
  have hsites : documentedSites records = [outer, nested, method] := by decide
  have hmethod : method ∈ documentedSites records := by rw [hsites]; decide
  have hnested : nested ∈ documentedSites records := by rw [hsites]; decide
  have houter : outer ∈ documentedSites records := by rw [hsites]; decide
  obtain ⟨parent, -, hchild, -, hlineage, -⟩ :=
    documented_declarations_form_forest records method hmethod
  have hbelow : method.isChild nested.key
      ((documentedSites records).map (·.key)) = true := by
    decide
  obtain rfl :=
    (hchild nested.key (.inr (List.mem_map_of_mem hnested))).1 hbelow
  refine ⟨hmethod, hchild, fun places hplaces => hlineage.unique hplaces ?_⟩
  exact .under hnested hbelow (.under houter (by decide) (.root (by decide)))

end Marginalia
