/-
Which declarations enclose which.

`declarations` lists what is declared while a stream is read, each with the
declarations whose bodies are open around it at that moment, innermost
first. It reads the events off the tracker and looks at no comment, so it
says where a declaration really stands; `Encloses` is this order on
declarations.

Whatever is declared is declared by the statement of some moment, under the
scopes of that moment (`declarations_made`): at an opening brace, at a
semicolon, at a line break or at the end of the text. So what is to be said of
a declaration is said of `declared?`, with any property of the tracker that
reading keeps.

Two more things are shown. What is on the stack was declared before, with
just the rest of the stack around it (`declarations_around`), so every target
of a record is declared somewhere in the stream (`run_declared`). And the
names on a site's path are those of the declarations around it, blocks and
the file aside, in the same order (`declarations_ancestry`), so that keys,
which are made of names only, can be read back as stacks.
-/
import Marginalia.Association.Lookup
import Marginalia.Proofs.Association.Ceiling
import Marginalia.Proofs.Association.Placement

namespace Marginalia

-- ========================================================= the stack

/-- The declarations among the levels of a stack, innermost first. -/
def declaredIn (levels : List Level) : List Site :=
  levels.filterMap (·.opening.site?)

/-- The names of a stack of declarations, outermost first. -/
def refsOf (around : List Site) : List ScopeRef := around.reverse.map (·.ref)

theorem refsOf_cons (site : Site) (around : List Site) :
    refsOf (site :: around) = refsOf around ++ [site.ref] := by
  simp [refsOf]

theorem refsOf_append (above below : List Site) :
    refsOf (above ++ below) = refsOf below ++ refsOf above := by
  simp [refsOf]

theorem declaredIn_block {level : Level} {brace : Nat}
    (h : level.opening = .block brace) (levels : List Level) :
    declaredIn (level :: levels) = declaredIn levels :=
  List.filterMap_cons_none (by rw [h]; rfl)

theorem declaredIn_declaration {level : Level} {site : Site}
    (h : level.opening = .declaration site) (levels : List Level) :
    declaredIn (level :: levels) = site :: declaredIn levels :=
  List.filterMap_cons_some (by rw [h]; rfl)

/-- Blocks and the file aside, the path of a stack is that of its
declarations. -/
theorem ancestry_pathOf (levels : List Level) :
    ancestry (pathOf levels) = refsOf (declaredIn levels) := by
  induction levels with
  | nil => rfl
  | cons level levels ih =>
      have hsplit : ancestry (pathOf (level :: levels))
          = refsOf (declaredIn levels)
            ++ ancestry [level.opening.frame.ref] := by
        rw [pathOf_cons, ← ih]
        exact List.filter_append ..
      rw [hsplit]
      cases ho : level.opening with
      | block brace =>
          rw [declaredIn_block ho]
          exact List.append_nil _
      | declaration site =>
          rw [declaredIn_declaration ho, refsOf_cons]
          obtain ⟨kind, name, start, line, path⟩ := site
          cases kind <;> rfl

/-- A declaration on the stack has the names below it and its own for a key. -/
theorem Nested.key {levels : List Level} (h : Nested levels) :
    ∀ {above below : List Site} {site : Site},
      declaredIn levels = above ++ site :: below →
      site.key = refsOf (site :: below) := by
  induction levels with
  | nil =>
      intro above below site hs
      exact absurd hs (by simp [declaredIn])
  | cons level levels ih =>
      intro above below site hs
      cases ho : level.opening with
      | block brace =>
          rw [declaredIn_block ho] at hs
          exact ih h.2 hs
      | declaration declared =>
          rw [declaredIn_declaration ho] at hs
          cases above with
          | nil =>
              rw [List.nil_append, List.cons.injEq] at hs
              obtain ⟨rfl, hbelow⟩ := hs
              rw [Site.key, Site.ancestry, h.1 declared ho, ancestry_pathOf,
                hbelow, refsOf_cons]
          | cons first above =>
              rw [List.cons_append, List.cons.injEq] at hs
              exact ih h.2 hs.2

-- ====================================================== declarations

/-- The declaration that an event tells of. -/
def ScopeEvent.site? : ScopeEvent → Option Site
  | .push _ opening _ => opening.site?
  | .statement _ site => site
  | .pop .. => none
  | .directive _ => none

theorem ScopeEvent.of_site? {event : ScopeEvent} {site : Site}
    (h : event.site? = some site) :
    ∃ depth, event = .statement depth (some site)
      ∨ ∃ nested, event = .push depth (.declaration site) nested := by
  cases event with
  | push depth opening nested =>
      cases opening with
      | declaration declared =>
          obtain rfl := Option.some.inj h
          exact ⟨depth, .inr ⟨nested, rfl⟩⟩
      | block brace => cases h
  | statement depth declared =>
      have h : declared = some site := h
      exact ⟨depth, .inl (by rw [h])⟩
  | pop depth frame => cases h
  | directive depth => cases h

/-- The declarations made while the items are read, each with the declarations
whose bodies are open around it, innermost first. -/
def declarations (reading : Reading) (t : Tracker) :
    List Item → List (Site × List Site)
  | [] =>
    ((t.flush reading.rules reading.scopeLines).2.filterMap (·.site?)).map
      (·, declaredIn t.levels)
  | item :: items =>
    ((t.read reading item).2.filterMap (·.site?)).map (·, declaredIn t.levels)
      ++ declarations reading (t.read reading item).1 items

/-- The body of the outer declaration is one of the scopes around the inner
one. -/
def Encloses (reading : Reading) (items : List Item) (outer inner : Site) :
    Prop :=
  ∃ around, (inner, around) ∈ declarations reading {} items ∧ outer ∈ around

section Declarations

variable {reading : Reading}

theorem mem_eventSites {events : List ScopeEvent} {around around' : List Site}
    {site : Site} :
    (site, around') ∈ (events.filterMap (·.site?)).map (·, around)
      ↔ around' = around ∧ ∃ event ∈ events, event.site? = some site := by
  simp only [List.mem_map, List.mem_filterMap, Prod.mk.injEq]
  constructor
  · rintro ⟨other, ⟨event, hmem, hsite⟩, rfl, rfl⟩
    exact ⟨rfl, event, hmem, hsite⟩
  · rintro ⟨rfl, event, hmem, hsite⟩
    exact ⟨site, ⟨event, hmem, hsite⟩, rfl, rfl⟩

/-- The declaration is made by the statement of a moment with the property, and
`around` are the declarations whose bodies are open then. -/
def MadeUnder (reading : Reading) (P : Tracker → Prop) (site : Site)
    (around : List Site) : Prop :=
  ∃ t terminator, P t
    ∧ t.declared? reading.rules reading.scopeLines terminator = some site
    ∧ around = declaredIn t.levels

section Made

variable {P : Tracker → Prop} {t : Tracker} {event : ScopeEvent} {site : Site}

/-- A line break tells of the declaration of the statement that it ends. -/
theorem breakLine_made {offset : Nat} {next : Option String}
    (hmem :
      event ∈ (t.breakLine reading.rules reading.scopeLines offset next).2)
    (hsite : event.site? = some site) (h : P t) :
    MadeUnder reading P site (declaredIn t.levels) := by
  rcases Tracker.breakLine_cases reading.rules reading.scopeLines t offset
    next with hb | hb
  · rw [hb] at hmem
    cases hmem
  · rw [hb, List.mem_singleton] at hmem
    rw [hmem] at hsite
    exact ⟨t, .statement, h, hsite, rfl⟩

/-- The end of the text tells of the declaration of the statement that it
ends. -/
theorem flush_made (hmem : event ∈ (t.flush reading.rules reading.scopeLines).2)
    (hsite : event.site? = some site) (h : P t) :
    MadeUnder reading P site (declaredIn t.levels) := by
  rcases Tracker.flush_cases reading.rules reading.scopeLines t with hf | hf
  · rw [hf] at hmem
    cases hmem
  · rw [hf, List.mem_singleton] at hmem
    rw [hmem] at hsite
    exact ⟨t, .statement, h, hsite, rfl⟩

/-- An item tells of declarations that statements make while it is read. -/
theorem read_made {item : Item}
    (hcleared : ∀ t, P t → P { t with header := [], parens := 0 })
    (hmem : event ∈ (t.read reading item).2) (hsite : event.site? = some site)
    (h : P t) :
    MadeUnder reading P site (declaredIn t.levels) := by
  rcases t.read_cases reading item with hread | ⟨offset, hread⟩ | ⟨token,
    -, hread⟩
  · rw [hread] at hmem
    cases hmem
  · rw [hread] at hmem
    exact breakLine_made hmem hsite h
  · rw [hread] at hmem
    rcases List.mem_append.1 hmem with hmem | hmem
    · exact breakLine_made hmem hsite h
    · obtain ⟨depth, hevent⟩ := ScopeEvent.of_site? hsite
      obtain ⟨-, terminator, hdeclared⟩ :=
        (Tracker.feedToken_step reading.rules reading.scopeLines _
          token).declares hmem hevent
      refine ⟨_, terminator, ?_, hdeclared, by rw [Tracker.breakLine_levels]⟩
      rcases Tracker.breakLine_cases reading.rules reading.scopeLines t
        token.start (some token.text) with hb | hb
      · rw [hb]
        exact h
      · rw [hb]
        exact hcleared t h

/-- Every declaration of a stream is made by the statement of a moment, with
whatever reading keeps. -/
theorem declarations_made
    (hcleared : ∀ t, P t → P { t with header := [], parens := 0 })
    (items : List Item) :
    ∀ t : Tracker, P t →
      (∀ token, .token token ∈ items → ∀ t, P t →
        P (t.feedToken reading.rules reading.scopeLines token).tracker) →
      ∀ {site : Site} {around : List Site},
        (site, around) ∈ declarations reading t items →
        MadeUnder reading P site around := by
  induction items with
  | nil =>
      intro t h _ site around hdeclared
      obtain ⟨rfl, event, hmem, hsite⟩ := mem_eventSites.1 hdeclared
      exact flush_made hmem hsite h
  | cons item items ih =>
      intro t h hfed site around hdeclared
      rcases List.mem_append.1 hdeclared with hdeclared | hdeclared
      · obtain ⟨rfl, event, hmem, hsite⟩ := mem_eventSites.1 hdeclared
        exact read_made hcleared hmem hsite h
      · refine ih _ ?_ (fun token hmem =>
          hfed token (List.mem_cons_of_mem _ hmem)) hdeclared
        refine read_keeps hcleared (fun t token hitem ht => ?_) h
        exact hfed token (hitem ▸ List.mem_cons_self) t ht

end Made

/-- Every declaration is made on a nested stack, and has its path. -/
theorem declarations_levels {items : List Item} {site : Site}
    {around : List Site} (h : (site, around) ∈ declarations reading {} items) :
    ∃ levels, Nested levels ∧ around = declaredIn levels
      ∧ site.path = pathOf levels := by
  obtain ⟨t, terminator, hnested, hdeclared, haround⟩ :=
    declarations_made (P := fun t => Nested t.levels) (fun _ ht => ht) items
      {} trivial (fun token _ _ ht => Tracker.feedToken_nested token ht) h
  exact ⟨t.levels, hnested,
    haround, by rw [Tracker.declared?_path hdeclared, Tracker.path_eq]⟩

/-- The names on a declaration's path are those of the declarations around
it. -/
theorem declarations_ancestry {items : List Item} {site : Site}
    {around : List Site} (h : (site, around) ∈ declarations reading {} items) :
    site.ancestry = refsOf around := by
  obtain ⟨levels, -, rfl, hpath⟩ := declarations_levels h
  rw [Site.ancestry, hpath, ancestry_pathOf]

/-- A declaration around another has the names around it and its own for a
key. -/
theorem declarations_key {items : List Item} {site outer : Site}
    {above below : List Site}
    (h : (site, above ++ outer :: below) ∈ declarations reading {} items) :
    outer.key = refsOf (outer :: below) := by
  obtain ⟨levels, hnested, haround, -⟩ := declarations_levels h
  exact hnested.key haround.symm

-- ============================================== where they come from

/-- What is on the stack after a token was there before, or the token has just
declared it. -/
theorem Tracker.FeedStep.around {rules : Rules} {lines : Text.Lines}
    {t : Tracker} {token : Token} {fed : Tracked}
    (hstep : FeedStep rules lines t token fed) {site : Site} {rest : List Site}
    (h : site :: rest <:+ declaredIn fed.tracker.levels) :
    site :: rest <:+ declaredIn t.levels
      ∨ rest = declaredIn t.levels ∧ ∃ event ∈ fed.events,
        event.site? = some site := by
  cases hstep with
  | directive | stray | ended => exact .inl h
  | literal | code =>
      simp only [append_levels] at h
      exact .inl h
  | opening =>
      cases ho : t.opened rules lines token with
      | block brace =>
          rw [declaredIn_block ho] at h
          exact .inl h
      | declaration declared =>
          rw [declaredIn_declaration ho] at h
          rcases List.suffix_cons_iff.1 h with heq | h
          · rw [List.cons.injEq] at heq
            obtain ⟨rfl, rfl⟩ := heq
            exact .inr ⟨rfl, _, List.mem_singleton_self _, rfl⟩
          · exact .inl h
  | resume _ level levels hl | closing _ level levels hl =>
      rw [hl]
      have hpopped : declaredIn levels <:+ declaredIn (level :: levels) :=
        (List.suffix_cons level levels).filterMap _
      exact .inl (h.trans hpopped)

/-- What is on the stack after an item was there before, or the item has just
declared it. -/
theorem read_around {t : Tracker} {item : Item} {site : Site} {rest : List Site}
    (h : site :: rest <:+ declaredIn (t.read reading item).1.levels) :
    site :: rest <:+ declaredIn t.levels
      ∨ (site, rest) ∈ ((t.read reading item).2.filterMap (·.site?)).map
        (·, declaredIn t.levels) := by
  rcases t.read_cases reading item with hread | ⟨offset, hread⟩ | ⟨token,
    -, hread⟩
  · rw [hread] at h
    exact .inl h
  · rw [hread, Tracker.breakLine_levels] at h
    exact .inl h
  · rw [hread] at h ⊢
    rcases (Tracker.feedToken_step reading.rules reading.scopeLines _
      token).around h with h | ⟨hrest, event, hmem, hsite⟩
    · rw [Tracker.breakLine_levels] at h
      exact .inl h
    · rw [Tracker.breakLine_levels] at hrest
      exact .inr (mem_eventSites.2 ⟨hrest, event,
        List.mem_append_right _ hmem, hsite⟩)

/-- What stands around a declaration was on the stack at the start, or is
declared on the way. -/
theorem declarations_around (items : List Item) :
    ∀ (t : Tracker) {inner site : Site} {around rest : List Site},
      (inner, around) ∈ declarations reading t items → site :: rest <:+ around →
      site :: rest <:+ declaredIn t.levels
        ∨ (site, rest) ∈ declarations reading t items := by
  induction items with
  | nil =>
      intro t inner site around rest h hsuffix
      obtain ⟨rfl, -⟩ := mem_eventSites.1 h
      exact .inl hsuffix
  | cons item items ih =>
      intro t inner site around rest h hsuffix
      rcases List.mem_append.1 h with h | h
      · obtain ⟨rfl, -⟩ := mem_eventSites.1 h
        exact .inl hsuffix
      · rcases ih _ h hsuffix with hthere | hlater
        · exact (read_around hthere).imp_right (List.mem_append_left _)
        · exact .inr (List.mem_append_right _ hlater)

/-- An encounter is on the way: what is declared behind it is declared, and
what is on its stack was on the stack at the start or is declared. -/
theorem encounters_declarations (items : List Item) :
    ∀ (t : Tracker), ∀ e ∈ encounters reading t items,
      (∀ d ∈ declarations reading e.tracker e.rest,
        d ∈ declarations reading t items)
        ∧ ∀ site rest, site :: rest <:+ declaredIn e.tracker.levels →
          site :: rest <:+ declaredIn t.levels
            ∨ (site, rest) ∈ declarations reading t items := by
  induction items with
  | nil =>
      intro t e he
      cases he
  | cons item items ih =>
      intro t e he
      rw [encounters, List.mem_append] at he
      rcases he with he | he
      · cases item with
        | comment c =>
            rw [Tracker.encounter] at he
            split at he
            · rw [List.mem_singleton] at he
              subst he
              exact ⟨fun d hd => List.mem_append_right _ hd,
                fun site rest h =>
                  (read_around h).imp_right (List.mem_append_left _)⟩
            · cases he
        | token token => cases he
      · obtain ⟨hbehind, hstack⟩ := ih _ e he
        refine ⟨fun d hd => List.mem_append_right _ (hbehind d hd),
          fun site rest h => ?_⟩
        rcases hstack site rest h with hthere | hlater
        · exact (read_around hthere).imp_right (List.mem_append_left _)
        · exact .inr (List.mem_append_right _ hlater)

-- =========================================================== targets

/-- An event closes a window with a declaration that it tells of. -/
theorem Window.decide_site? {w : Window} {event : ScopeEvent} {site : Site}
    (h : w.decide event = some (some site)) : event.site? = some site := by
  rcases Window.decide_site h with rfl | ⟨nested, rfl⟩ <;> rfl

/-- What a window comes to is declared on the way. -/
theorem settles_declared (items : List Item) :
    ∀ (w : Window) (t : Tracker) {site : Site},
      w.settles reading t items = some site →
      ∃ around, (site, around) ∈ declarations reading t items := by
  induction items with
  | nil =>
      intro w t site h
      rw [Window.settles, Option.join_eq_some_iff] at h
      obtain ⟨event, hmem, hdecide⟩ := List.exists_of_findSome?_eq_some h
      exact ⟨_,
        mem_eventSites.2 ⟨rfl, event, hmem, Window.decide_site? hdecide⟩⟩
  | cons item items ih =>
      intro w t site h
      rw [Window.settles] at h
      split at h
      · next target hdecide =>
        rw [h] at hdecide
        obtain ⟨event, hmem, hevent⟩ := List.exists_of_findSome?_eq_some hdecide
        exact ⟨_, List.mem_append_left _
          (mem_eventSites.2 ⟨rfl, event, hmem, Window.decide_site? hevent⟩)⟩
      · obtain ⟨around, hdeclared⟩ := ih _ _ h
        exact ⟨around, List.mem_append_right _ hdeclared⟩

theorem enclosingSite_eq (t : Tracker) :
    t.enclosingSite = (declaredIn t.levels).head? :=
  (List.head?_filterMap ..).symm

/-- What a record documents is declared in the stream. -/
theorem run_declared {items : List Item} {record : Record} {site : Site}
    (hmem : record ∈ (Matcher.run reading {} items).records)
    (hsite : record.target = some site) :
    ∃ around, (site, around) ∈ declarations reading {} items := by
  obtain ⟨e, he, hbound⟩ :=
    run_encounter (settledLaw reading) {} items record hmem
  obtain ⟨hbehind, hstack⟩ := encounters_declarations items {} e he
  cases hp : e.comment.placement with
  | outer =>
      obtain ⟨around, hdeclared⟩ :=
        settles_declared _ _ _ (hbound.outer hp site hsite)
      exact ⟨around, hbehind _ hdeclared⟩
  | inner =>
      rw [hbound.inner hp, enclosingSite_eq] at hsite
      obtain ⟨rest, hrest⟩ := List.head?_eq_some_iff.1 hsite
      rcases hstack site rest (hrest ▸ List.suffix_refl _)
        with hthere | hdeclared
      · exact absurd (List.suffix_nil.1 hthere) (List.cons_ne_nil site rest)
      · exact ⟨rest, hdeclared⟩

-- ============================================================== keys

/-- A declaration around another is one of the stream's. -/
theorem Encloses.declared {items : List Item} {outer inner : Site}
    (h : Encloses reading items outer inner) :
    ∃ around, (outer, around) ∈ declarations reading {} items := by
  obtain ⟨around, hdeclared, hmem⟩ := h
  obtain ⟨above, below, rfl⟩ := List.append_of_mem hmem
  rcases declarations_around items {} hdeclared
    (List.suffix_append above (outer :: below)) with hthere | hlater
  · exact absurd (List.suffix_nil.1 hthere) (List.cons_ne_nil outer below)
  · exact ⟨below, hlater⟩

/-- The key of a declaration leads the names around what it encloses. -/
theorem Encloses.key_leads {items : List Item} {outer inner : Site}
    (h : Encloses reading items outer inner) :
    outer.key <+: inner.ancestry := by
  obtain ⟨around, hdeclared, hmem⟩ := h
  obtain ⟨above, below, rfl⟩ := List.append_of_mem hmem
  rw [declarations_ancestry hdeclared, declarations_key hdeclared,
    refsOf_append]
  exact List.prefix_append _ _

/-- What leads the names around a declaration is the key of one that encloses
it. -/
theorem encloses_of_leads {items : List Item} {inner : Site}
    {around : List Site} {key : List ScopeRef}
    (hdeclared : (inner, around) ∈ declarations reading {} items)
    (hleads : key <+: inner.ancestry) (hne : key ≠ []) :
    ∃ outer, Encloses reading items outer inner ∧ outer.key = key := by
  rw [declarations_ancestry hdeclared] at hleads
  -- the declarations that the key names are the last ones of the stack
  have hsplit : around.take (around.length - key.length)
      ++ around.drop (around.length - key.length)
      = around := List.take_append_drop _ _
  have hkey : key = refsOf (around.drop (around.length - key.length)) := by
    have htake := List.prefix_iff_eq_take.1 hleads
    rw [refsOf, ← List.map_take, List.take_reverse] at htake
    exact htake
  cases hdrop : around.drop (around.length - key.length) with
  | nil =>
      rw [hdrop] at hkey
      exact absurd hkey hne
  | cons outer below =>
      rw [hdrop] at hsplit hkey
      rw [← hsplit] at hdeclared
      refine ⟨outer, ⟨_, hdeclared, by simp⟩, ?_⟩
      rw [declarations_key hdeclared, hkey]

end Declarations

end Marginalia
