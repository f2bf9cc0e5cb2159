/-
Looking declarations up by name.

The documented declarations of a text form a tree: one is below another
if it is nested in it with no documented declaration in between. A search
path goes down that tree, one piece of a name for each level.
-/
import Marginalia.Association.Record
import Marginalia.Text.Occurrence

namespace Marginalia

/-- What a search comes to. -/
inductive Lookup where
  | found (site : Site) (records : List Record)
  /-- Nothing at its level has a name with this piece in it. -/
  | notFound (term : String)
  /-- Several declarations at its level have. -/
  | ambiguous (sites : List Site) (term : String)
  deriving DecidableEq, Repr

/-- A search that cannot be made: there is nothing to search for. -/
inductive LookupError where
  | emptyPath
  deriving DecidableEq, Repr

/-- What is said of such a search. -/
def LookupError.message : LookupError → String
  | emptyPath => "search_path must contain at least one term"

-- =========================================================== nesting

/-- The declarations among the scopes of a path. -/
def ancestry (path : List ScopeRef) : List ScopeRef :=
  path.filter fun ref => ref.kind != .file && ref.kind != .block

/-- The declarations around a site. -/
def Site.ancestry (site : Site) : List ScopeRef := Marginalia.ancestry site.path

/-- The declarations around a site and the site itself. -/
def Site.key (site : Site) : List ScopeRef := site.ancestry ++ [site.ref]

/-- Whether the site is nested in the parent with no documented declaration
in between. -/
def Site.isChild (site : Site) (parent : List ScopeRef)
    (documented : List (List ScopeRef)) : Bool :=
  parent.isPrefixOf site.ancestry
    && documented.all fun key =>
      !(key.isPrefixOf site.ancestry && parent.length < key.length)

-- ============================================================ search

/-- The documented declarations, in the order in which they first appear. -/
def documentedSites (records : List Record) : List Site :=
  (records.filterMap (·.target)).eraseDups

/-- The declarations right below the parent with the piece in their names. -/
def candidates (sites : List Site) (parent : List ScopeRef) (term : String) :
    List Site :=
  sites.filter fun site =>
    Text.occursIn term.toList site.name.toList
      && site.isChild parent (sites.map (·.key))

/-- Goes down the tree from a parent, along a path with a first term. -/
def descend (records : List Record) (sites : List Site) (parent : List ScopeRef)
    (term : String) : List String → Lookup
  | [] =>
    match candidates sites parent term with
    | [] => .notFound term
    | [site] => .found site (records.filter (·.target == some site))
    | several => .ambiguous several term
  | next :: terms =>
    match candidates sites parent term with
    | [] => .notFound term
    | [site] => descend records sites site.key next terms
    | several => .ambiguous several term

/-- Finds a documented declaration by pieces of names, outermost first. -/
def find (records : List Record) : List String → Except LookupError Lookup
  | [] => .error .emptyPath
  | term :: terms =>
    .ok (descend records (documentedSites records) [] term terms)

end Marginalia
