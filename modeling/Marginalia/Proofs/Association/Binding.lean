/-
What a waiting comment can be bound to.

While a window is open the scopes at its comment stay open below those of
the moment. So whatever ends the window with a declaration does so with
just the comment's scopes around it, and the declaration is one that the
statement being read makes there. `BindingLaw` says what is then left to
show of the tracker, `Stays`, and of the declaration, `Binds`.
-/
import Marginalia.Proofs.Association.Encounter
import Marginalia.Proofs.Scope.Step

namespace Marginalia

/-- What the end of a statement and every token keep, every item keeps. -/
theorem read_keeps {reading : Reading} {P : Tracker → Prop} {tracker : Tracker}
    {item : Item} (hcleared : ∀ t, P t → P { t with header := [], parens := 0 })
    (hfed : ∀ t token, item = .token token → P t →
      P (t.feedToken reading.rules reading.scopeLines token).tracker)
    (h : P tracker) : P (tracker.read reading item).1 := by
  have hbreak : ∀ offset next,
      P (tracker.breakLine reading.rules reading.scopeLines offset next).1 := by
    intro offset next
    rcases Tracker.breakLine_cases reading.rules reading.scopeLines tracker
      offset next with hb | hb
    · rw [hb]
      exact h
    · rw [hb]
      exact hcleared tracker h
  rcases tracker.read_cases reading item with hread | ⟨offset, hread⟩ | ⟨token,
    hitem, hread⟩
  · rw [hread]
    exact h
  · rw [hread]
    exact hbreak offset none
  · rw [hread]
    exact hfed _ token hitem (hbreak token.start (some token.text))

/-- What the end of a statement and every token of a stretch keep, the stretch
keeps. -/
theorem readAll_keeps (reading : Reading) {P : Tracker → Prop}
    (items : List Item)
    (hcleared : ∀ t, P t → P { t with header := [], parens := 0 }) :
    ∀ tracker : Tracker,
      (∀ token, .token token ∈ items → ∀ t, P t →
        P (t.feedToken reading.rules reading.scopeLines token).tracker) →
      P tracker → P (tracker.readAll reading items) := by
  induction items with
  | nil =>
      intro tracker _ h
      exact h
  | cons item items ih =>
      intro tracker hfed h
      apply ih _ fun token hmem => hfed token (List.mem_cons_of_mem _ hmem)
      exact read_keeps hcleared
        (fun t token hitem => hfed token (hitem ▸ List.mem_cons_self) t) h

-- ========================================================= decisions

/-- A window that closes with a declaration does so on a statement or a body
at its own depth. -/
theorem Window.decide_site {w : Window} {event : ScopeEvent} {site : Site}
    (h : w.decide event = some (some site)) :
    event = .statement w.depth (some site)
      ∨ ∃ nested, event = .push w.depth (.declaration site) nested := by
  cases event with
  | directive depth => cases h
  | pop depth frame =>
      simp only [decide] at h
      split at h <;> cases h
  | statement depth declared =>
      simp only [decide] at h
      split at h
      · next hdepth =>
        rw [Bool.and_eq_true, beq_iff_eq] at hdepth
        injection h with hsite
        rw [hdepth.1, hsite]
        exact Or.inl rfl
      · cases h
  | push depth opening nested =>
      simp only [decide] at h
      split at h
      · cases h
      · next hdepth =>
        have hdepth : depth = w.depth := by simpa using hdepth
        refine Or.inr ⟨nested, ?_⟩
        cases opening with
        | declaration declared =>
            split at h
            · injection h with hsite
              injection hsite with hsite
              rw [hdepth, hsite]
            · cases h
        | block brace =>
            split at h <;> cases h

/-- A window stays open when a scope inside its own is closed. -/
theorem Window.decide_pop {w : Window} {depth : Nat} {frame : Frame}
    (h : w.decide (.pop depth frame) = none) : w.depth ≤ depth := by
  simp only [decide] at h
  split at h
  · cases h
  · omega

/-- A declaration in an event of a token is one the statement makes. -/
theorem Tracker.FeedStep.declares {rules : Rules} {lines : Text.Lines}
    {tracker : Tracker} {token : Token} {fed : Tracked}
    (hstep : FeedStep rules lines tracker token fed) {depth : Nat} {site : Site}
    {event : ScopeEvent} (hmem : event ∈ fed.events)
    (h : event = .statement depth (some site)
      ∨ ∃ nested, event = .push depth (.declaration site) nested) :
    depth = tracker.depth ∧ ∃ terminator,
      tracker.declared? rules lines terminator = some site := by
  cases hstep with
  | directive | resume | closing =>
      rw [List.mem_singleton] at hmem
      subst hmem
      rcases h with h | ⟨nested, h⟩ <;> cases h
  | literal | stray | code => cases hmem
  | opening =>
      rw [List.mem_singleton] at hmem
      subst hmem
      rcases h with h | ⟨nested, h⟩
      · cases h
      · injection h with hdepth hopened
        refine ⟨hdepth.symm, .body, ?_⟩
        unfold opened at hopened
        cases hd : tracker.declared? rules lines .body with
        | none => rw [hd] at hopened; cases hopened
        | some declared =>
            rw [hd] at hopened
            injection hopened with hsite
            rw [hsite]
  | ended =>
      rw [List.mem_singleton] at hmem
      subst hmem
      rcases h with h | ⟨nested, h⟩
      · injection h with hdepth hsite
        exact ⟨hdepth.symm, .statement, hsite⟩
      · cases h

/-- Scopes below an open window stay as they are. -/
theorem Tracker.FeedStep.suffix {rules : Rules} {lines : Text.Lines}
    {tracker : Tracker} {token : Token} {fed : Tracked}
    (hstep : FeedStep rules lines tracker token fed) {levels : List Level}
    {w : Window} (hdepth : w.depth = levels.length + 1)
    (hopen : ∀ event ∈ fed.events, w.decide event = none)
    (h : levels <:+ tracker.levels) :
    levels <:+ fed.tracker.levels := by
  -- a scope that is closed stood above the levels
  have hpopped : ∀ (level : Level) (rest : List Level) (frame : Frame),
      tracker.levels = level :: rest →
        w.decide (.pop (rest.length + 1) frame) = none →
      levels <:+ rest := by
    intro level rest frame hl hd
    have hle := Window.decide_pop hd
    rw [hl] at h
    rcases List.suffix_cons_iff.1 h with heq | hsuffix
    · rw [heq, List.length_cons] at hdepth
      omega
    · exact hsuffix
  cases hstep with
  | directive | stray | ended => exact h
  | literal | code => simpa only [append_levels] using h
  | opening => exact h.trans (List.suffix_cons _ _)
  | resume _ level rest hl | closing _ level rest hl =>
      exact hpopped level rest _ hl (hopen _ List.mem_cons_self)

-- =============================================================== law

/-- What is left to show of a tracker while a window is open, `Stays`, and of
a declaration that closes it, `Binds`. -/
structure BindingLaw (reading : Reading)
    (Stays : Encounter → Tracker → List Item → Prop)
    (Binds : Encounter → Site → Prop) : Prop where
  /-- A window opens. -/
  opens : ∀ e, Stays e e.tracker e.rest
  /-- An item that does not matter comes by. -/
  skip : ∀ e t item items, Stays e t (item :: items) → Stays e t items
  /-- A line break ends a statement. -/
  breaks : ∀ e t items,
    Stays e t items → Stays e { t with header := [], parens := 0 } items
  /-- A token is read. -/
  feeds : ∀ e t token items fed, Stays e t (.token token :: items) →
    Tracker.FeedStep reading.rules reading.scopeLines t token fed →
    e.tracker.levels <:+ t.levels → e.tracker.levels <:+ fed.tracker.levels →
    Stays e fed.tracker items
  /-- The statement at the comment's scopes makes a declaration. -/
  declares : ∀ e t items terminator site,
    Stays e t items → t.levels = e.tracker.levels →
    t.declared? reading.rules reading.scopeLines terminator = some site →
      Binds e site

section Binding

variable {reading : Reading} {Stays : Encounter → Tracker → List Item → Prop}
  {Binds : Encounter → Site → Prop}

/-- An open window, its comment's scopes below those of the moment. -/
structure Waits (Stays : Encounter → Tracker → List Item → Prop) (e : Encounter)
    (w : Window) (t : Tracker) (items : List Item) : Prop where
  outer : e.comment.placement = .outer
  comment : w.comment = e.comment
  depth : w.depth = e.tracker.depth
  suffix : e.tracker.levels <:+ t.levels
  stays : Stays e t items

/-- A record with its comment's depth: an inner comment's has the declaration
around it, an outer comment's none or one that `Binds` allows. -/
structure Bound (Binds : Encounter → Site → Prop) (e : Encounter)
    (record : Record) : Prop where
  comment : record.comment = e.comment
  depth : record.depth = e.tracker.depth
  inner : e.comment.placement = .inner → record.target = e.tracker.enclosingSite
  outer : e.comment.placement = .outer → ∀ site,
    record.target = some site → Binds e site

/-- An inner comment has the declaration around it. -/
theorem Bound.around {e : Encounter} (hp : e.comment.placement = .inner) :
    Bound Binds e ⟨e.comment, e.tracker.enclosingSite, e.tracker.depth⟩ :=
  ⟨rfl, rfl, fun _ => rfl,
    fun ho => absurd (hp.symm.trans ho) Placement.noConfusion⟩

/-- An outer comment may have no declaration. -/
theorem Bound.unbound {e : Encounter} (hp : e.comment.placement = .outer)
    {c : Comment} (hcomment : c = e.comment) {depth : Nat}
    (hdepth : depth = e.tracker.depth) : Bound Binds e ⟨c, none, depth⟩ :=
  ⟨hcomment, hdepth,
    fun hi => absurd (hp.symm.trans hi) Placement.noConfusion,
    fun _ _ hsite => absurd hsite (by simp)⟩

/-- A window that closes without a declaration. -/
theorem Waits.orphan {e : Encounter} {w : Window} {t : Tracker}
    {items : List Item} (h : Waits Stays e w t items) :
    Bound Binds e ⟨w.comment, none, w.depth⟩ :=
  .unbound h.outer h.comment h.depth

/-- A window that closes on an event of its own depth. -/
theorem Waits.binds (law : BindingLaw reading Stays Binds) {e : Encounter}
    {w w' : Window} {t : Tracker} {items : List Item}
    (h : Waits Stays e w t items) (hdepth : w'.depth = w.depth)
    {event : ScopeEvent} {target : Option Site}
    (hdecide : w'.decide event = some target)
    (hdeclares : ∀ site depth, (event = .statement depth (some site)
        ∨ ∃ nested, event = .push depth (.declaration site) nested) →
      depth = t.depth
        ∧ ∃ terminator, t.declared? reading.rules reading.scopeLines terminator
          = some site) :
    Bound Binds e ⟨w.comment, target, w.depth⟩ := by
  refine ⟨h.comment, h.depth,
    fun hp => absurd (h.outer.symm.trans hp) Placement.noConfusion,
    fun _ site hsite => ?_⟩
  have hsite : target = some site := hsite
  rw [hsite] at hdecide
  obtain ⟨hsame, terminator, hdeclared⟩ :=
    hdeclares site _ (Window.decide_site hdecide)
  have hlength : e.tracker.levels.length = t.levels.length := by
    have hd := h.depth
    unfold Tracker.depth at hd hsame
    omega
  have hlevels : t.levels = e.tracker.levels :=
    (h.suffix.eq_of_length hlength).symm
  exact law.declares e t items terminator site h.stays hlevels hdeclared

/-- A line break closes the window or leaves it waiting. -/
theorem Waits.breakLine (law : BindingLaw reading Stays Binds) {e : Encounter}
    {w w' : Window} {t : Tracker} {items : List Item}
    (h : Waits Stays e w t items) (hdepth : w'.depth = w.depth) (offset : Nat)
    (next : Option String) :
    match (t.breakLine reading.rules reading.scopeLines offset next).2.findSome?
      w'.decide with
    | some target => Bound Binds e ⟨w.comment, target, w.depth⟩
    | none =>
      Waits Stays e w (t.breakLine reading.rules reading.scopeLines offset
        next).1 items := by
  rcases Tracker.breakLine_cases reading.rules reading.scopeLines t offset
    next with hb | hb
  · rw [hb]
    exact h
  · rw [hb, List.findSome?_singleton]
    split
    · next target hdecide =>
      refine h.binds law hdepth hdecide fun site depth hevent => ?_
      rcases hevent with hevent | ⟨nested, hevent⟩
      · injection hevent with hd hs
        exact ⟨hd.symm, .statement, hs⟩
      · cases hevent
    · exact ⟨h.outer, h.comment, h.depth, h.suffix,
        law.breaks e t items h.stays⟩

/-- A token closes the window or leaves it waiting. -/
theorem Waits.feedToken (law : BindingLaw reading Stays Binds) {e : Encounter}
    {w w' : Window} {t : Tracker} {token : Token} {items : List Item}
    (h : Waits Stays e w t (.token token :: items))
    (hdepth : w'.depth = w.depth) :
    match (t.feedToken reading.rules reading.scopeLines token).events.findSome?
      w'.decide with
    | some target => Bound Binds e ⟨w.comment, target, w.depth⟩
    | none =>
      Waits Stays e w
        (t.feedToken reading.rules reading.scopeLines token).tracker items := by
  have hstep := Tracker.feedToken_step reading.rules reading.scopeLines t token
  split
  · next target hdecide =>
    obtain ⟨event, hmem, hevent⟩ := List.exists_of_findSome?_eq_some hdecide
    exact h.binds law hdepth hevent fun site depth hsite =>
      hstep.declares hmem hsite
  · next hdecide =>
    have hsuffix := hstep.suffix (hdepth.trans h.depth)
      (List.findSome?_eq_none_iff.1 hdecide) h.suffix
    exact ⟨h.outer, h.comment, h.depth, hsuffix,
      law.feeds e t token items _ h.stays hstep h.suffix hsuffix⟩

theorem Waits.congr {e : Encounter} {w w' : Window} {t : Tracker}
    {items : List Item} (h : Waits Stays e w t items)
    (hcomment : w'.comment = w.comment) (hdepth : w'.depth = w.depth) :
    Waits Stays e w' t items :=
  ⟨h.outer, hcomment.trans h.comment, hdepth.trans h.depth, h.suffix, h.stays⟩

theorem Waits.skip (law : BindingLaw reading Stays Binds) {e : Encounter}
    {w : Window} {t : Tracker} {item : Item} {items : List Item}
    (h : Waits Stays e w t (item :: items)) :
    Waits Stays e w t items :=
  ⟨h.outer, h.comment, h.depth, h.suffix, law.skip e t item items h.stays⟩

/-- An item closes the window or leaves it waiting. -/
theorem Waits.item (law : BindingLaw reading Stays Binds) {e : Encounter}
    {w : Window} {t : Tracker} {item : Item} {items : List Item}
    (h : Waits Stays e w t (item :: items)) :
    match (t.read reading item).2.findSome? (w.meets reading item).decide with
    | some target => Bound Binds e ⟨w.comment, target, w.depth⟩
    | none =>
        Waits Stays e (w.passes reading item) (t.read reading item).1
          items := by
  have hmeets := w.meets_depth reading item
  have hpasses : ∀ {t' : Tracker}, Waits Stays e w t' items →
      Waits Stays e (w.passes reading item) t' items :=
    fun hw => hw.congr (w.passes_comment reading item)
      (w.passes_depth reading item)
  rcases t.read_cases reading item with hread | ⟨offset, hread⟩ | ⟨token,
    rfl, hread⟩
  · rw [hread]
    exact hpasses (h.skip law)
  · rw [hread]
    have hbreak := (h.skip law).breakLine law hmeets offset none
    split at hbreak
    · exact hbreak
    · exact hpasses hbreak
  · rw [hread]
    simp only [List.findSome?_append]
    have hbreak := h.breakLine law hmeets token.start (some token.text)
    split at hbreak
    · next hd =>
      rw [hd]
      exact hbreak
    · next hd =>
      rw [hd, Option.none_or]
      have hfeed := hbreak.feedToken law hmeets
      split at hfeed
      · exact hfeed
      · exact hpasses hfeed

/-- The records of windows that wait under a binding law. -/
theorem BindingLaw.windowLaw (law : BindingLaw reading Stays Binds) :
    WindowLaw reading (Waits Stays) (Bound Binds) where
  inner _ hp := .around hp
  inHeader _ hp := .unbound hp rfl rfl
  opens e hp := ⟨hp, rfl, rfl, List.suffix_refl _, law.opens e⟩
  orphan _ _ _ _ h := h.orphan
  item _ _ _ _ _ h := h.item law
  ending e w t h target hd := by
    rcases Tracker.flush_cases reading.rules reading.scopeLines t with hf | hf
    · rw [hf] at hd
      cases hd
    · rw [hf, List.findSome?_singleton] at hd
      refine h.binds law rfl hd fun site depth hevent => ?_
      rcases hevent with hevent | ⟨nested, hevent⟩
      · injection hevent with hdepth hs
        exact ⟨hdepth.symm, .statement, hs⟩
      · cases hevent

end Binding

end Marginalia
