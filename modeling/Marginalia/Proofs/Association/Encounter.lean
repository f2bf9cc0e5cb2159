/-
Doc comments as they come by, and the one induction over the matcher's
runs.

# Encounters

The scopes a matcher tracks do not depend on its window: every item moves
the tracker in one way (`Tracker.read`), whether a comment waits or not.
So the scopes at each doc comment are a function of the stream alone, and
`encounters` lists them: the comment, the tracker when it is dealt with, and
the items after it.

# The run invariant

At any time the matcher owes records for some of the encounters behind it:
for its open window, and for the records held behind that window, in this
order (`Owes`). A step pays a front part of what is owed and may add one
encounter of its own. What a record has to do with its encounter, `Rel`, and
what is known of a window while it is open, `Opens`, are left open here;
`WindowLaw` says what they must satisfy, and `run_records` is then the
induction for all of them. Everything that is said of every record of a
scan is an instance.
-/
import Marginalia.Association.Matcher
import Mathlib.Data.List.Forall2

namespace Marginalia

/-- Each member of the second of two related lists is related to one of the
first. -/
theorem forall₂_exists_left {α β : Type} {R : α → β → Prop} {xs : List α}
    {ys : List β} (h : List.Forall₂ R xs ys) : ∀ y ∈ ys, ∃ x ∈ xs, R x y := by
  induction h with
  | nil =>
      intro y hy
      cases hy
  | @cons x y xs ys hxy _ ih =>
      intro z hz
      rcases List.mem_cons.1 hz with rfl | hz
      · exact ⟨x, List.mem_cons_self, hxy⟩
      · obtain ⟨w, hw, hwz⟩ := ih z hz
        exact ⟨w, List.mem_cons_of_mem x hw, hwz⟩

-- ==================================================== the encounters

/-- A doc comment, the scopes when it is dealt with, and what is still to
come. -/
structure Encounter where
  comment : Comment
  tracker : Tracker
  rest : List Item

/-- What an item does to the scopes: a doc comment may end a statement, a
token that is not passed over is read. -/
def Tracker.read (reading : Reading) (tracker : Tracker) :
    Item → Tracker × List ScopeEvent
  | .comment c =>
    if c.isDoc then tracker.breakBefore reading.rules reading.scopeLines c.start
    else (tracker, [])
  | .token t =>
    if Matcher.ignores reading t then (tracker, [])
    else
      let tracked := tracker.feed reading.rules reading.scopeLines t
      (tracked.tracker, tracked.events)

/-- An item leaves the scopes alone, may end a statement as a line break
does, or is a token that is read, perhaps after a line break. -/
theorem Tracker.read_cases (reading : Reading) (tracker : Tracker)
    (item : Item) :
    tracker.read reading item = (tracker, [])
      ∨ (∃ offset, tracker.read reading item
          = tracker.breakLine reading.rules reading.scopeLines offset none)
      ∨ ∃ token, item = .token token ∧ tracker.read reading item
          = (((tracker.breakLine reading.rules reading.scopeLines token.start
                (some token.text)).1.feedToken reading.rules reading.scopeLines
                  token).tracker,
              (tracker.breakLine reading.rules reading.scopeLines token.start
                (some token.text)).2
              ++ ((tracker.breakLine reading.rules reading.scopeLines
                token.start
                (some token.text)).1.feedToken reading.rules reading.scopeLines
                  token).events) := by
  cases item with
  | comment c =>
      simp only [read]
      split
      · exact Or.inr (Or.inl ⟨c.start, rfl⟩)
      · exact Or.inl rfl
  | token t =>
      simp only [read]
      split
      · exact Or.inl rfl
      · exact Or.inr (Or.inr ⟨t, rfl, rfl⟩)

/-- The encounter of an item, if it is a doc comment. -/
def Tracker.encounter (reading : Reading) (tracker : Tracker)
    (rest : List Item) : Item → List Encounter
  | .comment c =>
    if c.isDoc then [⟨c, (tracker.read reading (.comment c)).1, rest⟩] else []
  | .token _ => []

/-- The encounters of a stream that starts with the given scopes. -/
def encounters (reading : Reading) (tracker : Tracker) :
    List Item → List Encounter
  | [] => []
  | item :: items =>
    tracker.encounter reading items item
      ++ encounters reading (tracker.read reading item).1 items

/-- The doc comment that an item is. -/
def Item.doc? : Item → Option Comment
  | .comment c => if c.isDoc then some c else none
  | .token _ => none

/-- The encounters of a stream are those of its doc comments, in order. -/
theorem encounters_comments (reading : Reading) (items : List Item) :
    ∀ tracker : Tracker,
      (encounters reading tracker items).map (·.comment)
        = items.filterMap Item.doc? := by
  induction items with
  | nil => intro tracker; rfl
  | cons item items ih =>
      intro tracker
      rw [encounters, List.map_append, ih, List.filterMap_cons]
      cases item with
      | comment c =>
          cases hd : c.isDoc with
          | true => simp [Tracker.encounter, Item.doc?, hd]
          | false => simp [Tracker.encounter, Item.doc?, hd]
      | token t => simp [Tracker.encounter, Item.doc?]

/-- The scopes after a stretch of the stream. -/
def Tracker.readAll (reading : Reading) (tracker : Tracker)
    (items : List Item) : Tracker :=
  items.foldl (fun t item => (t.read reading item).1) tracker

/-- An encounter parts the stream at its comment, and its scopes are those
after the front part, as the comment leaves them. -/
theorem encounters_split (reading : Reading) (items : List Item) :
    ∀ tracker : Tracker, ∀ e ∈ encounters reading tracker items, ∃ before,
      items = before ++ .comment e.comment :: e.rest
        ∧ e.tracker
          = ((tracker.readAll reading before).breakBefore reading.rules
          reading.scopeLines e.comment.start).1 := by
  induction items with
  | nil =>
      intro tracker e he
      cases he
  | cons item items ih =>
      intro tracker e he
      rw [encounters, List.mem_append] at he
      rcases he with he | he
      · cases item with
        | comment c =>
            rw [Tracker.encounter] at he
            split at he
            · next hc =>
              rw [List.mem_singleton] at he
              subst he
              refine ⟨[], rfl, ?_⟩
              rw [Tracker.read, if_pos hc]
              rfl
            · cases he
        | token t => cases he
      · obtain ⟨before, hsplit, htracker⟩ := ih _ e he
        exact ⟨item :: before, congrArg (item :: ·) hsplit, htracker⟩

/-- What every step keeps of the scopes holds at every encounter. -/
theorem encounters_all {reading : Reading} {P : Tracker → Prop}
    (hstep : ∀ tracker item, P tracker → P (tracker.read reading item).1)
    (items : List Item) :
    ∀ tracker : Tracker, P tracker → ∀ e ∈ encounters reading tracker items,
      P e.tracker := by
  induction items with
  | nil =>
      intro tracker _ e he
      exact absurd he (by simp [encounters])
  | cons item items ih =>
      intro tracker hp e he
      rw [encounters, List.mem_append] at he
      rcases he with he | he
      · cases item with
        | comment c =>
            rw [Tracker.encounter] at he
            split at he
            · rw [List.mem_singleton] at he
              subst he
              exact hstep tracker _ hp
            · cases he
        | token t => cases he
      · exact ih _ (hstep tracker item hp) e he

-- ============================================= windows, item by item

/-- The window as it meets an item: it notes the first token. -/
def Window.meets (reading : Reading) (window : Window) : Item → Window
  | .comment _ => window
  | .token t =>
    if Matcher.ignores reading t then window
    else { window with firstStart := window.firstStart <|> some t.start }

/-- The window after an item that did not close it: it has counted a token. -/
def Window.passes (reading : Reading) (window : Window) : Item → Window
  | .comment _ => window
  | .token t =>
    if Matcher.ignores reading t then window
    else
      { window with
        firstStart := window.firstStart <|> some t.start
        tokens := window.tokens + 1 }

theorem Window.passes_comment (reading : Reading) (w : Window) (item : Item) :
    (w.passes reading item).comment = w.comment := by
  cases item with
  | comment c => rfl
  | token t =>
      simp only [Window.passes]
      split <;> rfl

theorem Window.passes_depth (reading : Reading) (w : Window) (item : Item) :
    (w.passes reading item).depth = w.depth := by
  cases item with
  | comment c => rfl
  | token t =>
      simp only [Window.passes]
      split <;> rfl

theorem Window.meets_depth (reading : Reading) (w : Window) (item : Item) :
    (w.meets reading item).depth = w.depth := by
  cases item with
  | comment c => rfl
  | token t =>
      simp only [Window.meets]
      split <;> rfl

/-- The window that opens at an encounter. -/
def Encounter.window (e : Encounter) : Window where
  comment := e.comment
  depth := e.tracker.depth
  inCall := 0 < e.tracker.parens

/-- What must be known of windows, `Opens`, and records, `Rel`, for every
record to be as `Rel` says of its encounter. -/
structure WindowLaw (reading : Reading)
    (Opens : Encounter → Window → Tracker → List Item → Prop)
    (Rel : Encounter → Record → Prop) : Prop where
  /-- The record of an inner comment. -/
  inner : ∀ e, e.comment.placement = .inner →
    Rel e ⟨e.comment, e.tracker.enclosingSite, e.tracker.depth⟩
  /-- The record of an outer comment inside a header that has begun. -/
  inHeader : ∀ e, e.comment.placement = .outer →
    Rel e ⟨e.comment, none, e.tracker.depth⟩
  /-- A window opens. -/
  opens : ∀ e, e.comment.placement = .outer → Opens e e.window e.tracker e.rest
  /-- A window closes without a declaration. -/
  orphan : ∀ e w t items, Opens e w t items → Rel e ⟨w.comment, none, w.depth⟩
  /-- An item comes by: the window closes as its events say, or stays open. -/
  item : ∀ e w t item items, Opens e w t (item :: items) →
    match (t.read reading item).2.findSome? (w.meets reading item).decide with
    | some target => Rel e ⟨w.comment, target, w.depth⟩
    | none => Opens e (w.passes reading item) (t.read reading item).1 items
  /-- The text ends. -/
  ending : ∀ e w t, Opens e w t [] → ∀ target,
    (t.flush reading.rules reading.scopeLines).2.findSome? w.decide
      = some target →
    Rel e ⟨w.comment, target, w.depth⟩

-- =============================================== what a matcher owes

section Owing

variable {reading : Reading}
    {Opens : Encounter → Window → Tracker → List Item → Prop}
  {Rel : Encounter → Record → Prop}

/-- The encounters a matcher owes records for: its window's, and then those of
the records it holds. Nothing is held without a window. -/
def Owes (Opens : Encounter → Window → Tracker → List Item → Prop)
    (Rel : Encounter → Record → Prop) (items : List Item)
    (owed : List Encounter) (m : Matcher) : Prop :=
  match m.window with
  | none => owed = [] ∧ m.held = []
  | some w => ∃ e rest, owed = e :: rest ∧ Opens e w m.tracker items
      ∧ List.Forall₂ Rel rest m.held

/-- A step that pays a front part of what is owed, and owes the rest. -/
def Pays (Opens : Encounter → Window → Tracker → List Item → Prop)
    (Rel : Encounter → Record → Prop) (items : List Item)
    (owed : List Encounter) (matched : Matched) : Prop :=
  ∃ paid left, owed = paid ++ left ∧ List.Forall₂ Rel paid matched.records
    ∧ Owes Opens Rel items left matched.matcher

/-- Without a window nothing is owed and nothing held. -/
theorem Owes.none_iff {items : List Item} {owed : List Encounter} {m : Matcher}
    (hw : m.window = none) :
    Owes Opens Rel items owed m ↔ owed = [] ∧ m.held = [] := by
  unfold Owes
  rw [hw]

/-- With a window the first comment owed is the one that waits, and what is held
answers the others. -/
theorem Owes.some_iff {items : List Item} {owed : List Encounter} {m : Matcher}
    {w : Window} (hw : m.window = some w) :
    Owes Opens Rel items owed m
      ↔ ∃ e rest, owed = e :: rest ∧ Opens e w m.tracker items
        ∧ List.Forall₂ Rel rest m.held := by
  unfold Owes
  rw [hw]

/-- A step that puts out nothing pays nothing. -/
theorem Owes.pays {items : List Item} {owed : List Encounter} {m : Matcher}
    (h : Owes Opens Rel items owed m) :
    Pays Opens Rel items owed { matcher := m } :=
  ⟨[], owed, rfl, .nil, h⟩

/-- Payments add up, and the second step may owe more than the first left. -/
theorem Pays.andThen {items items' : List Item} {owed more : List Encounter}
    {x : Matched} {f : Matcher → Matched} (hx : Pays Opens Rel items owed x)
    (hf : ∀ left, Owes Opens Rel items left x.matcher →
      Pays Opens Rel items' (left ++ more) (f x.matcher)) :
    Pays Opens Rel items' (owed ++ more) (x.andThen f) := by
  obtain ⟨paid, left, rfl, hpaid, hleft⟩ := hx
  obtain ⟨paid', left', hsplit, hpaid', hleft'⟩ := hf left hleft
  refine ⟨paid ++ paid', left', ?_, ?_, hleft'⟩
  · rw [List.append_assoc, hsplit, List.append_assoc]
  · exact List.rel_append hpaid hpaid'

/-- Closing the window pays everything. -/
theorem resolve_pays {items : List Item} (items' : List Item)
    {owed : List Encounter} {m : Matcher} (target : Option Site)
    (h : Owes Opens Rel items owed m)
    (hrel : ∀ e w, m.window = some w → Opens e w m.tracker items →
      Rel e ⟨w.comment, target, w.depth⟩) :
    Pays Opens Rel items' owed (m.resolve target)
      ∧ (m.resolve target).matcher.window = none := by
  unfold Matcher.resolve
  cases hw : m.window with
  | none =>
      obtain ⟨rfl, hheld⟩ := (Owes.none_iff hw).1 h
      exact ⟨⟨[], [], rfl, .nil, (Owes.none_iff hw).2 ⟨rfl, hheld⟩⟩, hw⟩
  | some w =>
      obtain ⟨e, rest, rfl, hopen, hheld⟩ := (Owes.some_iff hw).1 h
      refine ⟨⟨e :: rest, [], by simp, ?_, ⟨rfl, rfl⟩⟩, rfl⟩
      exact .cons (hrel e w hw hopen) hheld

/-- An empty line may close the window; the scopes stay. -/
theorem detach_pays (law : WindowLaw reading Opens Rel) {items : List Item}
    {owed : List Encounter} {m : Matcher} (offset : Nat)
    (h : Owes Opens Rel items owed m) :
    Pays Opens Rel items owed (m.detach reading offset) := by
  unfold Matcher.detach
  split
  · exact (resolve_pays items none h fun e w _ ho => law.orphan e w _ _ ho).1
  · exact h.pays

/-- A record is put out when nothing is owed before it, and held otherwise. -/
theorem emit_pays {items : List Item} {owed : List Encounter} {m : Matcher}
    {e : Encounter} {record : Record} (h : Owes Opens Rel items owed m)
    (hrel : Rel e record) :
    Pays Opens Rel items (owed ++ [e]) (m.emit record) := by
  unfold Matcher.emit
  cases hw : m.window with
  | none =>
      obtain ⟨rfl, hheld⟩ := (Owes.none_iff hw).1 h
      exact ⟨[e], [], rfl, .cons hrel .nil, (Owes.none_iff hw).2 ⟨rfl, hheld⟩⟩
  | some w =>
      obtain ⟨e₀, rest, rfl, hopen, hheld⟩ := (Owes.some_iff hw).1 h
      refine ⟨[], e₀ :: rest ++ [e], rfl, .nil, ?_⟩
      exact ⟨e₀, rest ++ [e], rfl, hopen,
        List.rel_append hheld (.cons hrel .nil)⟩

theorem heed_tracker (m : Matcher) (events : List ScopeEvent) :
    (m.heed events).matcher.tracker = m.tracker := by
  unfold Matcher.heed
  split
  · rfl
  · unfold Matcher.resolve
    split <;> rfl

/-- Closing a window reads nothing, so the scopes stay. So they do below, except
where an item is read. -/
theorem resolve_tracker (m : Matcher) (target : Option Site) :
    (m.resolve target).matcher.tracker = m.tracker := by
  unfold Matcher.resolve
  split <;> rfl

theorem resolve_window (m : Matcher) (target : Option Site) :
    (m.resolve target).matcher.window = none := by
  unfold Matcher.resolve
  split
  · next h => exact h
  · rfl

theorem detach_tracker (reading : Reading) (m : Matcher) (offset : Nat) :
    (m.detach reading offset).matcher.tracker = m.tracker := by
  unfold Matcher.detach
  split
  · exact resolve_tracker m none
  · rfl

-- ========================================================== comments

/-- A doc comment's events close the window, or it stays open with the
scopes after the comment. -/
theorem heed_comment_pays (law : WindowLaw reading Opens Rel)
    {items : List Item} {owed : List Encounter} {m : Matcher} {c : Comment}
    (h : Owes Opens Rel (.comment c :: items) owed m) :
    Pays Opens Rel items owed
      ({ m with tracker := (m.tracker.read reading (.comment c)).1 }.heed
        (m.tracker.read reading (.comment c)).2) := by
  unfold Matcher.heed
  cases hw : m.window with
  | none =>
      obtain ⟨rfl, hheld⟩ := (Owes.none_iff hw).1 h
      exact ⟨[], [], rfl, .nil, rfl, hheld⟩
  | some w =>
      obtain ⟨e, rest, rfl, hopen, hheld⟩ := (Owes.some_iff hw).1 h
      have hitem := law.item e w m.tracker (.comment c) items hopen
      simp only [Window.meets, Window.passes] at hitem
      rw [Option.bind_some]
      cases hd : (m.tracker.read reading (.comment c)).2.findSome? w.decide with
      | none =>
          rw [hd] at hitem
          exact ⟨[], e :: rest, rfl, .nil, e, rest, rfl, hitem, hheld⟩
      | some target =>
          rw [hd] at hitem
          exact ⟨e :: rest, [], by simp, .cons hitem hheld, rfl, rfl⟩

/-- An outer doc comment is held in a header that has begun, and otherwise
opens a window of its own. -/
theorem onOuter_pays (law : WindowLaw reading Opens Rel) {owed : List Encounter}
    {m : Matcher} {e : Encounter} (hplace : e.comment.placement = .outer)
    (htracker : m.tracker = e.tracker) (h : Owes Opens Rel e.rest owed m) :
    Pays Opens Rel e.rest (owed ++ [e]) (m.onOuter e.comment) := by
  unfold Matcher.onOuter
  split
  · rw [htracker]
    exact emit_pays h (law.inHeader e hplace)
  · obtain ⟨hpays, hwindow⟩ := resolve_pays e.rest none h
      fun e₀ w _ ho => law.orphan e₀ w _ _ ho
    refine hpays.andThen fun left hleft => ?_
    obtain ⟨rfl, hheld⟩ := (Owes.none_iff hwindow).1 hleft
    have htracker' : (m.resolve none).matcher.tracker = e.tracker := by
      rw [resolve_tracker, htracker]
    refine Owes.pays ((Owes.some_iff rfl).2 ⟨e, [], rfl, ?_, ?_⟩)
    · have hopen := law.opens e hplace
      simp only [Matcher.openWindow, htracker']
      exact hopen
    · simp only [Matcher.openWindow, hheld]
      exact .nil

/-- A doc comment adds its encounter to what is owed. -/
theorem onDoc_pays (law : WindowLaw reading Opens Rel) {items : List Item}
    {owed : List Encounter} {m : Matcher} {c : Comment} (hc : c.isDoc = true)
    (h : Owes Opens Rel (.comment c :: items) owed m) :
    Pays Opens Rel items
      (owed ++ m.tracker.encounter reading items (.comment c))
      (m.onDoc reading c) := by
  have hread : m.tracker.read reading (.comment c)
      = m.tracker.breakBefore reading.rules reading.scopeLines c.start := by
    simp [Tracker.read, hc]
  have hencounter : m.tracker.encounter reading items (.comment c)
      = [⟨c, (m.tracker.read reading (.comment c)).1, items⟩] := by
    simp [Tracker.encounter, hc]
  unfold Matcher.onDoc
  rw [hencounter, ← hread]
  refine (heed_comment_pays law h).andThen fun left hleft => ?_
  have htracker := heed_tracker
    { m with tracker := (m.tracker.read reading (.comment c)).1 }
    (m.tracker.read reading (.comment c)).2
  cases hp : c.placement with
  | inner =>
      simp only [htracker]
      exact emit_pays hleft (law.inner ⟨c, _, items⟩ hp)
  | outer => exact onOuter_pays law (e := ⟨c, _, items⟩) hp htracker hleft

/-- An item that is passed over, with the tracker left as it is, leaves an open
window as it is. -/
theorem Owes.skip (law : WindowLaw reading Opens Rel) {item : Item}
    {items : List Item} {owed : List Encounter} {m : Matcher}
    (hread : m.tracker.read reading item = (m.tracker, []))
    (hpasses : ∀ w : Window, w.passes reading item = w)
    (h : Owes Opens Rel (item :: items) owed m) :
    Owes Opens Rel items owed m := by
  cases hw : m.window with
  | none => exact (Owes.none_iff hw).2 ((Owes.none_iff hw).1 h)
  | some w =>
      obtain ⟨e, rest, rfl, hopen, hheld⟩ := (Owes.some_iff hw).1 h
      have hitem := law.item e w m.tracker item items hopen
      rw [hread, hpasses] at hitem
      exact (Owes.some_iff hw).2 ⟨e, rest, rfl, hitem, hheld⟩

/-- A comment pays what its window or the lines in front of it close, and owes
itself if it documents. -/
theorem onComment_pays (law : WindowLaw reading Opens Rel) {items : List Item}
    {owed : List Encounter} {m : Matcher} {c : Comment}
    (h : Owes Opens Rel (.comment c :: items) owed m) :
    Pays Opens Rel items
      (owed ++ m.tracker.encounter reading items (.comment c))
      (m.onComment reading c) := by
  unfold Matcher.onComment
  refine (detach_pays law c.start h).andThen fun left hleft => ?_
  rw [← detach_tracker reading m c.start]
  cases hc : c.isDoc with
  | true => simpa using onDoc_pays law hc hleft
  | false =>
      have hnone :
          ((m.detach reading c.start).matcher.tracker.encounter reading items
          (.comment c)) = [] := by
        simp [Tracker.encounter, hc]
      rw [hnone, List.append_nil]
      have hskip :=
        Owes.skip law (by simp [Tracker.read, hc]) (fun _ => rfl) hleft
      simpa using hskip.pays

-- ============================================================ tokens

/-- A token's events close the window, or it counts the token and closes
when there were too many. -/
theorem feed_pays (law : WindowLaw reading Opens Rel) {items : List Item}
    {owed : List Encounter} {m : Matcher} {t : Token}
    (ht : Matcher.ignores reading t = false)
    (h : Owes Opens Rel (.token t :: items) owed m) :
    Pays Opens Rel items owed (m.feed reading t) := by
  unfold Matcher.feed Matcher.heed Matcher.noteFirst
  cases hw : m.window with
  | none =>
      obtain ⟨rfl, hheld⟩ := (Owes.none_iff hw).1 h
      simp only [Matched.andThen, Option.map_none, Option.bind_none,
        Matcher.countToken, List.append_nil]
      exact ⟨[], [], rfl, .nil, rfl, hheld⟩
  | some w =>
      obtain ⟨e, rest, rfl, hopen, hheld⟩ := (Owes.some_iff hw).1 h
      have hitem := law.item e w m.tracker (.token t) items hopen
      simp only [Tracker.read, Window.meets, Window.passes, ht,
        Bool.false_eq_true, if_false] at hitem
      simp only [Matched.andThen, Option.map_some, Option.bind_some]
      split
      · next hd =>
        rw [hd] at hitem
        simp only [Matcher.countToken]
        split
        · -- the window has seen too many tokens
          simp only [Matched.andThen, Matcher.resolve, List.nil_append]
          have horphan := law.orphan e _ _ _ hitem
          exact ⟨e :: rest, [], by simp, .cons horphan hheld, rfl, rfl⟩
        · exact ⟨[], e :: rest, rfl, .nil, e, rest, rfl, hitem, hheld⟩
      · next target hd =>
        rw [hd] at hitem
        simp only [Matcher.resolve, Matcher.countToken, List.append_nil]
        exact ⟨e :: rest, [], by simp, .cons hitem hheld, rfl, rfl⟩

/-- A token only pays. -/
theorem onToken_pays (law : WindowLaw reading Opens Rel) {items : List Item}
    {owed : List Encounter} {m : Matcher} {t : Token}
    (h : Owes Opens Rel (.token t :: items) owed m) :
    Pays Opens Rel items owed (m.onToken reading t) := by
  unfold Matcher.onToken
  cases ht : Matcher.ignores reading t with
  | true =>
      have hskip := Owes.skip law (by simp [Tracker.read, ht])
        (fun w => by simp [Window.passes, ht]) h
      simpa using hskip.pays
  | false =>
      have hfeed : Pays Opens Rel items (owed ++ [])
          ((m.detach reading t.start).andThen (Matcher.feed reading t)) := by
        refine (detach_pays law t.start h).andThen fun left hleft => ?_
        rw [List.append_nil]
        exact feed_pays law ht hleft
      simpa using hfeed

-- ============================================================== runs

/-- Where the reading stands does not matter to what is owed. -/
theorem Pays.reach {items : List Item} {owed : List Encounter}
    {matched : Matched} (h : Pays Opens Rel items owed matched)
    (reached : Nat) :
    Pays Opens Rel items owed
      { matched with matcher :=
  { matched.matcher with lastEnd := reached } } := by
  obtain ⟨paid, left, hsplit, hpaid, hleft⟩ := h
  exact ⟨paid, left, hsplit, hpaid, hleft⟩

/-- One item: what was owed before it and its own encounter are paid from the
front. -/
theorem step_pays (law : WindowLaw reading Opens Rel) {item : Item}
    {items : List Item} {owed : List Encounter} {m : Matcher}
    (h : Owes Opens Rel (item :: items) owed m) :
    Pays Opens Rel items (owed ++ m.tracker.encounter reading items item)
      (m.step reading item) := by
  unfold Matcher.step
  refine Pays.reach ?_ _
  cases item with
  | comment c => exact onComment_pays law h
  | token t =>
      rw [Tracker.encounter, List.append_nil]
      exact onToken_pays law h

theorem onDoc_tracker (m : Matcher) (c : Comment) :
    (m.onDoc reading c).matcher.tracker
      = (m.tracker.breakBefore reading.rules reading.scopeLines c.start).1 := by
  unfold Matcher.onDoc
  simp only [Matched.andThen]
  cases c.placement with
  | inner =>
      simp only [Matcher.emit]
      split <;> rw [heed_tracker]
  | outer =>
      simp only [Matcher.onOuter]
      split
      · simp only [Matcher.emit]
        split <;> rw [heed_tracker]
      · simp only [Matched.andThen, Matcher.openWindow]
        rw [resolve_tracker, heed_tracker]

theorem countToken_tracker (m : Matcher) :
    (m.countToken reading).matcher.tracker = m.tracker := by
  unfold Matcher.countToken
  split
  · rfl
  · split <;> rfl

/-- The matcher's scopes move as the stream says, whatever it waits for. -/
theorem step_tracker (m : Matcher) (item : Item) :
    (m.step reading item).matcher.tracker
      = (m.tracker.read reading item).1 := by
  cases item with
  | comment c =>
      simp only [Matcher.step, Matcher.onComment, Matched.andThen, Tracker.read]
      split
      · rw [onDoc_tracker, detach_tracker]
      · rw [detach_tracker]
  | token t =>
      simp only [Matcher.step, Matcher.onToken, Tracker.read]
      split
      · rfl
      · simp only [Matched.andThen, Matcher.feed]
        rw [countToken_tracker, heed_tracker]
        simp only [Matcher.noteFirst, detach_tracker]

/-- The end of the text pays all that is left. -/
theorem finish_pays (law : WindowLaw reading Opens Rel) {owed : List Encounter}
    {m : Matcher} (h : Owes Opens Rel [] owed m) :
    List.Forall₂ Rel owed (m.finish reading).records := by
  unfold Matcher.finish Matcher.heed
  cases hw : m.window with
  | none =>
      obtain ⟨rfl, hheld⟩ := (Owes.none_iff hw).1 h
      simp [Matched.andThen, Matcher.resolve, hheld]
  | some w =>
      obtain ⟨e, rest, rfl, hopen, hheld⟩ := (Owes.some_iff hw).1 h
      simp only [Option.bind_some]
      split
      · simp only [Matched.andThen, Matcher.resolve, List.nil_append,
          List.append_nil]
        exact .cons (law.orphan e w _ _ hopen) hheld
      · next target hd =>
        simp only [Matched.andThen, Matcher.resolve, List.append_nil]
        exact .cons (law.ending e w _ hopen target hd) hheld

/-- A run pays what was owed at its start and then every encounter of its
stream, in order. -/
theorem run_pays (law : WindowLaw reading Opens Rel) (items : List Item) :
    ∀ (owed : List Encounter) (m : Matcher), Owes Opens Rel items owed m →
      List.Forall₂ Rel (owed ++ encounters reading m.tracker items)
        (m.run reading items).records := by
  induction items with
  | nil =>
      intro owed m h
      rw [encounters, List.append_nil]
      exact finish_pays law h
  | cons item items ih =>
      intro owed m h
      obtain ⟨paid, left, hsplit, hpaid, hleft⟩ := step_pays law h
      have hrest := ih left _ hleft
      rw [step_tracker] at hrest
      rw [encounters, ← List.append_assoc, hsplit, List.append_assoc]
      exact List.rel_append hpaid hrest

/-- Every record of a run that starts without a window is as `Rel` says of
its encounter, and there is one for each. -/
theorem run_records (law : WindowLaw reading Opens Rel) (tracker : Tracker)
    (items : List Item) :
    List.Forall₂ Rel (encounters reading tracker items)
      (Matcher.run reading { tracker } items).records := by
  have h := run_pays law items [] { tracker } ⟨rfl, rfl⟩
  simpa using h

/-- Every record of a run belongs to an encounter. -/
theorem run_encounter (law : WindowLaw reading Opens Rel) (tracker : Tracker)
    (items : List Item) :
    ∀ record ∈ (Matcher.run reading { tracker } items).records,
      ∃ e ∈ encounters reading tracker items, Rel e record :=
  forall₂_exists_left (run_records law tracker items)

end Owing

end Marginalia
