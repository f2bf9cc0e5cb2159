/-
Runs that differ in what they have of some comments.

`Hides keep` relates a matcher to one that lacks the records of all comments
but those to keep, and is otherwise in the same state. It is what every step
leaves (`Matcher.Hides.step`), and a comment that is not to be kept leaves it
too, where no statement ends at a line break and the comment opens no window
(`Matcher.Hides.onDoc_hidden`): all it does is to have a record.

The two matchers need not have read equally far. How far was read is looked
at only while a comment waits behind which nothing was read (`SameReach`), for
the empty line that would part it from the code.
-/
import Marginalia.Proofs.Association.Moved

namespace Marginalia

/-- An item that is a doc comment is that comment. -/
theorem Item.of_doc? {item : Item} {c : Comment} (h : item.doc? = some c) :
    item = .comment c ∧ c.isDoc = true := by
  cases item with
  | comment d =>
      obtain ⟨hdoc, hsame⟩ := Option.ite_none_right_eq_some.1 h
      obtain rfl := Option.some.inj hsame
      exact ⟨rfl, hdoc⟩
  | token t => cases h

-- ====================================================== two matchers

/-- The second matcher is the first without the records of some comments. -/
structure Matcher.Hides (keep : Comment → Bool) (m m' : Matcher) : Prop where
  tracker : m'.tracker = m.tracker
  window : m'.window = m.window
  /-- The comment that waits is to be kept. -/
  kept : ∀ w ∈ m.window, keep w.comment = true
  held : m'.held = m.held.filter (keep ·.comment)

/-- The second step is the first without the records of some comments. -/
structure Matched.Hides (keep : Comment → Bool) (x x' : Matched) : Prop where
  matcher : x.matcher.Hides keep x'.matcher
  records : x'.records = x.records.filter (keep ·.comment)
  notices : x'.notices = x.notices

/-- Two matchers have read equally far, if that matters. -/
def Matcher.SameReach (m m' : Matcher) : Prop :=
  m.window.any (·.tokens == 0) = true → m'.lastEnd = m.lastEnd

section

variable {reading : Reading} {keep : Comment → Bool} {m m' : Matcher}

/-- A step that only moves on. -/
theorem Matcher.Hides.matched (h : m.Hides keep m') (notices : List Notice) :
    Matched.Hides keep { matcher := m, notices } { matcher := m', notices } :=
  ⟨h, rfl, rfl⟩

theorem Matcher.Hides.withTracker (h : m.Hides keep m') (tracker : Tracker) :
    Matcher.Hides keep { m with tracker } { m' with tracker } :=
  ⟨rfl, h.window, h.kept, h.held⟩

theorem Matcher.Hides.withWindow (h : m.Hides keep m') {window : Option Window}
    (hkept : ∀ w ∈ window, keep w.comment = true) :
    Matcher.Hides keep { m with window } { m' with window } :=
  ⟨h.tracker, rfl, hkept, h.held⟩

/-- Steps one after the other lack the records that each of them lacks. -/
theorem Matched.Hides.andThen {x x' : Matched} {f f' : Matcher → Matched}
    (hx : x.Hides keep x') (hf : x.matcher.Hides keep x'.matcher →
      (f x.matcher).Hides keep (f' x'.matcher)) :
    (x.andThen f).Hides keep (x'.andThen f') := by
  have hsecond := hf hx.matcher
  refine ⟨hsecond.matcher, ?_, ?_⟩
  · simp only [Matched.andThen, List.filter_append, hx.records, hsecond.records]
  · simp only [Matched.andThen, hx.notices, hsecond.notices]

/-- How far was read is not part of it. -/
theorem Matched.Hides.reach {x x' : Matched} (h : x.Hides keep x')
    (reached reached' : Nat) :
    Matched.Hides keep
      { x with matcher := { x.matcher with lastEnd := reached } }
      { x' with matcher := { x'.matcher with lastEnd := reached' } } :=
  ⟨⟨h.matcher.tracker, h.matcher.window, h.matcher.kept, h.matcher.held⟩,
    h.records, h.notices⟩

/-- Two steps of which one is taken. -/
theorem Matched.Hides.ite {p p' : Prop} [Decidable p] [Decidable p']
    {x x' y y' : Matched} (hp : p' ↔ p) (hpos : p → x.Hides keep x')
    (hneg : ¬p → y.Hides keep y') :
    (if p then x else y).Hides keep (if p' then x' else y') := by
  by_cases h : p
  · rw [if_pos h, if_pos (hp.2 h)]
    exact hpos h
  · rw [if_neg h, if_neg fun h' => h (hp.1 h')]
    exact hneg h

namespace Matcher.Hides

-- =========================================================== windows

/-- The comment that waits is kept, so closing its window gives its record
in both. -/
theorem resolve (h : m.Hides keep m') (target : Option Site) :
    (m.resolve target).Hides keep (m'.resolve target) := by
  unfold Matcher.resolve
  rw [h.window]
  cases hw : m.window with
  | none => exact h.matched []
  | some w =>
      have hkept := h.kept w hw
      refine ⟨⟨h.tracker, rfl, by simp, rfl⟩, ?_, rfl⟩
      simp only [List.filter_cons, hkept, if_true, h.held]

/-- The same events close both windows. -/
theorem heed (h : m.Hides keep m') (events : List ScopeEvent) :
    (m.heed events).Hides keep (m'.heed events) := by
  unfold Matcher.heed
  rw [h.window]
  split
  · exact h.matched []
  · exact h.resolve _

/-- The same empty line closes both, as far as both have read to the same
place. -/
theorem detach (h : m.Hides keep m') (hreach : m.SameReach m') (offset : Nat) :
    (m.detach reading offset).Hides keep (m'.detach reading offset) := by
  refine .ite ?_ (fun _ => h.resolve none) fun _ => h.matched []
  rw [h.window, Bool.and_eq_true, Bool.and_eq_true]
  exact and_congr_right fun hunread => by rw [hreach hunread]

-- ========================================================== comments

/-- A record to be kept is put out by both or held by both. -/
theorem emit (h : m.Hides keep m') {record : Record}
    (hkept : keep record.comment = true) :
    (m.emit record).Hides keep (m'.emit record) := by
  refine .ite (by rw [h.window]) (fun _ => ?_) fun _ => ?_
  · refine ⟨⟨h.tracker, h.window, h.kept, ?_⟩, rfl, rfl⟩
    simp [h.held, hkept]
  · exact ⟨h, by simp [hkept], rfl⟩

/-- A record that is not to be kept, held or put out. -/
theorem emit_hidden (h : m.Hides keep m') {record : Record}
    (hhidden : keep record.comment = false) :
    (m.emit record).Hides keep { matcher := m' } := by
  unfold Matcher.emit
  split
  · refine ⟨⟨h.tracker, h.window, h.kept, ?_⟩, rfl, rfl⟩
    simp [h.held, hhidden]
  · exact ⟨h, by simp [hhidden], rfl⟩

/-- A comment to be kept may wait in both. -/
theorem openWindow (h : m.Hides keep m') {c : Comment} (hkept : keep c = true) :
    (m.openWindow c).Hides keep (m'.openWindow c) := by
  refine ⟨h.tracker, ?_, fun w hw => ?_, h.held⟩
  · simp only [Matcher.openWindow, h.tracker]
  · rw [← Option.some.inj hw]
    exact hkept

/-- So an outer comment to be kept does the same to both. -/
theorem onOuter (h : m.Hides keep m') {c : Comment} (hkept : keep c = true) :
    (m.onOuter c).Hides keep (m'.onOuter c) := by
  refine .ite (by rw [h.window]) (fun _ => ?_) fun _ => ?_
  · rw [h.tracker]
    exact h.emit hkept
  · exact (h.resolve none).andThen fun h => (h.openWindow hkept).matched []

theorem onDoc (h : m.Hides keep m') {c : Comment} (hkept : keep c = true) :
    (m.onDoc reading c).Hides keep (m'.onDoc reading c) := by
  unfold Matcher.onDoc
  rw [h.tracker]
  refine ((h.withTracker _).heed _).andThen fun h => ?_
  cases c.placement with
  | inner =>
      rw [h.tracker]
      exact h.emit hkept
  | outer => exact h.onOuter hkept

/-- Where no statement ends at a line break, an inner comment has a record and
does nothing else, and so does any other inside a statement for which a comment
waits. -/
theorem onDoc_hidden (hbreaks : reading.rules.newlineTerminates = false)
    (h : m.Hides keep m') {c : Comment} (hhidden : keep c = false)
    (hopens : c.placement = .inner ∨ m.window.any (0 < ·.tokens) = true) :
    (m.onDoc reading c).Hides keep { matcher := m' } := by
  have hbroken : m.tracker.breakBefore reading.rules reading.scopeLines c.start
      = (m.tracker, []) := by
    simp [Tracker.breakBefore, Tracker.breakLine, hbreaks]
  have hheed : Matcher.heed m [] = { matcher := m } := by
    unfold Matcher.heed
    cases m.window <;> rfl
  have hdoc : m.onDoc reading c = m.emit
      ⟨c, if c.placement = .inner then m.tracker.enclosingSite else none,
        m.tracker.depth⟩ := by
    unfold Matcher.onDoc
    rw [hbroken]
    show (Matcher.heed m []).andThen _ = _
    rw [hheed]
    cases hplacement : c.placement with
    | inner => rfl
    | outer =>
        have hstarted : m.window.any (0 < ·.tokens) = true :=
          hopens.resolve_left (by rw [hplacement]; exact Placement.noConfusion)
        show Matched.andThen _ (fun m => m.onOuter c) = _
        simp only [Matched.andThen, Matcher.onOuter, hstarted, if_true]
        rfl
  rw [hdoc]
  exact h.emit_hidden hhidden

/-- So does any comment, since a plain one has no record. -/
theorem onComment (h : m.Hides keep m') (hreach : m.SameReach m') {c : Comment}
    (hkept : c.isDoc = true → keep c = true) :
    (m.onComment reading c).Hides keep (m'.onComment reading c) :=
  (h.detach hreach c.start).andThen fun h =>
    .ite .rfl (fun hdoc => h.onDoc (hkept hdoc)) fun _ => h.matched []

-- ============================================================ tokens

/-- A token counts in both windows. -/
theorem countToken (h : m.Hides keep m') :
    (m.countToken reading).Hides keep (m'.countToken reading) := by
  unfold Matcher.countToken
  rw [h.window]
  cases hw : m.window with
  | none => exact h.matched []
  | some w =>
      have hkept : ∀ w' ∈ some { w with tokens := w.tokens + 1 },
          keep w'.comment = true := by
        intro w' hw'
        rw [← Option.some.inj hw']
        exact h.kept w hw
      have hcounted := h.withWindow hkept
      exact .ite .rfl (fun _ => (hcounted.matched _).andThen fun h =>
        h.resolve none) fun _ => hcounted.matched []

/-- The trackers are the same, so a token brings both the same events. -/
theorem feed (h : m.Hides keep m') (t : Token) :
    (m.feed reading t).Hides keep (m'.feed reading t) := by
  have hnoted : (m.noteFirst t).Hides keep (m'.noteFirst t) := by
    unfold Matcher.noteFirst
    rw [h.window]
    refine h.withWindow fun w hw => ?_
    obtain ⟨w₀, hw₀, rfl⟩ := Option.map_eq_some_iff.1 hw
    exact h.kept w₀ hw₀
  simp only [Matcher.feed, hnoted.tracker]
  exact ((hnoted.withTracker _).matched _).andThen fun h =>
    (h.heed _).andThen fun h => h.countToken

theorem onToken (h : m.Hides keep m') (hreach : m.SameReach m') (t : Token) :
    (m.onToken reading t).Hides keep (m'.onToken reading t) :=
  .ite .rfl (fun _ => h.matched []) fun _ =>
    (h.detach hreach t.start).andThen fun h => h.feed t

-- ============================================================== runs

/-- An item that both read, all but a doc comment that is not to be kept. -/
theorem step (h : m.Hides keep m') (hreach : m.SameReach m') {item : Item}
    (hkept : ∀ c, item.doc? = some c → keep c = true) :
    (m.step reading item).Hides keep (m'.step reading item) := by
  cases item with
  | comment c =>
      refine (h.onComment hreach fun hdoc => hkept c ?_).reach _ _
      rw [Item.doc?, if_pos hdoc]
  | token t => exact (h.onToken hreach t).reach _ _

/-- A stretch that both read after the same reach, no doc comment of which is
to be hidden. -/
theorem consume (items : List Item) :
    ∀ {m m' : Matcher}, m.Hides keep m' → m'.lastEnd = m.lastEnd →
      (∀ item ∈ items, ∀ c, item.doc? = some c → keep c = true) →
      (m.consume reading items).Hides keep (m'.consume reading items) := by
  induction items with
  | nil =>
      intro m m' h _ _
      exact h.matched []
  | cons item items ih =>
      intro m m' h hend hkept
      refine (h.step (fun _ => hend) (hkept item List.mem_cons_self)).andThen
        fun h => ih h ?_ ?_
      · rw [step_lastEnd, step_lastEnd, hend]
      · exact fun i hi => hkept i (List.mem_cons_of_mem item hi)

/-- The end of the text. -/
theorem finish (h : m.Hides keep m') :
    (m.finish reading).Hides keep (m'.finish reading) := by
  unfold Matcher.finish
  rw [h.tracker]
  refine ((h.withTracker _).heed _).andThen fun h =>
    (h.resolve none).andThen fun h => ?_
  rw [h.tracker]
  exact ⟨⟨rfl, h.window, h.kept, rfl⟩, h.held, rfl⟩

end Matcher.Hides

end

end Marginalia
