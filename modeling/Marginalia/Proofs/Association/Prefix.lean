/-
Runs in two parts.

`Matcher.consume` is a run that stops before the end of the text. A run over
a longer stream goes on where one over its front part stopped
(`run_append`); the scopes it stopped with depend on the stream alone
(`consume_tracker`), and a record it holds is put out in the end
(`run_held`).
-/
import Marginalia.Proofs.Association.Encounter

namespace Marginalia

namespace Matcher

/-- A stretch of the stream, with more to come. -/
def consume (reading : Reading) (m : Matcher) : List Item → Matched
  | [] => { matcher := m }
  | item :: items =>
    (m.step reading item).andThen fun m => m.consume reading items

/-- The scopes when a doc comment is dealt with. -/
def scopesAt (reading : Reading) (m : Matcher) (c : Comment) : Tracker :=
  (m.tracker.breakBefore reading.rules reading.scopeLines c.start).1

end Matcher

/-- Of three steps it does not matter which two are taken together. -/
theorem Matched.andThen_assoc (x : Matched) (f g : Matcher → Matched) :
    (x.andThen f).andThen g = x.andThen fun m => (f m).andThen g := by
  simp only [andThen, List.append_assoc]

/-- A run over a longer stream goes on where the run over its front part
stopped. -/
theorem run_append (reading : Reading) (front back : List Item) :
    ∀ m : Matcher, m.run reading (front ++ back)
      = (m.consume reading front).andThen fun m => m.run reading back := by
  induction front with
  | nil =>
      intro m
      simp [Matcher.consume, Matched.andThen]
  | cons item front ih =>
      intro m
      rw [List.cons_append, Matcher.run, Matcher.consume, Matched.andThen_assoc]
      exact congrArg _ (funext ih)

/-- A longer stretch goes on where its front part stopped. -/
theorem consume_append (reading : Reading) (front back : List Item) :
    ∀ m : Matcher, (m.consume reading (front ++ back)).matcher
      = ((m.consume reading front).matcher.consume reading back).matcher := by
  induction front with
  | nil =>
      intro m
      rfl
  | cons item front ih =>
      intro m
      exact ih (m.step reading item).matcher

/-- The records of a run are those of its stream and those of its end. -/
theorem run_finish (reading : Reading) (m : Matcher) (items : List Item) :
    (m.run reading items).records = (m.consume reading items).records
      ++ ((m.consume reading items).matcher.finish reading).records := by
  have happend := run_append reading items [] m
  rw [List.append_nil] at happend
  rw [happend]
  rfl

/-- The scopes after a stretch of the stream depend on the stream alone. -/
theorem consume_tracker (reading : Reading) (items : List Item) :
    ∀ m : Matcher, (m.consume reading items).matcher.tracker
      = m.tracker.readAll reading items := by
  induction items with
  | nil => intro m; rfl
  | cons item items ih =>
      intro m
      show ((m.step reading item).matcher.consume reading items).matcher.tracker
        = _
      rw [ih, step_tracker]
      rfl

/-- The scopes at the end of a run depend on the stream alone. -/
theorem run_tracker (reading : Reading) (items : List Item) (m : Matcher) :
    (m.run reading items).matcher.tracker
      = (((m.tracker.readAll reading items).flush reading.rules
        reading.scopeLines).1.close
        reading.scopeLines reading.text.length).tracker := by
  have happend := run_append reading items [] m
  rw [List.append_nil] at happend
  rw [happend, ← consume_tracker]
  simp only [Matched.andThen, Matcher.run, Matcher.finish, heed_tracker,
    resolve_tracker]

/-- A stretch of the stream pays part of what is owed, and owes the rest. -/
theorem consume_owes {reading : Reading}
    {Opens : Encounter → Window → Tracker → List Item → Prop}
    {Rel : Encounter → Record → Prop} (law : WindowLaw reading Opens Rel)
    (front back : List Item) :
    ∀ owed (m : Matcher), Owes Opens Rel (front ++ back) owed m →
      ∃ left, Owes Opens Rel back left (m.consume reading front).matcher := by
  induction front with
  | nil =>
      intro owed m h
      exact ⟨owed, h⟩
  | cons item front ih =>
      intro owed m h
      obtain ⟨-, left, -, -, hleft⟩ := step_pays law h
      exact ih left _ hleft

/-- The records of a run are those of its encounters; each parts the stream
at its comment. -/
theorem run_at_comment {reading : Reading}
    {Opens : Encounter → Window → Tracker → List Item → Prop}
    {Rel : Encounter → Record → Prop} (law : WindowLaw reading Opens Rel)
    (items : List Item) {record : Record}
    (h : record ∈ (Matcher.run reading {} items).records) :
    ∃ before e, items = before ++ .comment e.comment :: e.rest
      ∧ e ∈ encounters reading {} items
      ∧ e.tracker = (Matcher.consume reading {} before).matcher.scopesAt reading
        e.comment
      ∧ Rel e record := by
  obtain ⟨e, he, hrel⟩ := run_encounter law {} items record h
  obtain ⟨before, hsplit, htracker⟩ := encounters_split reading items {} e he
  refine ⟨before, e, hsplit, he, ?_, hrel⟩
  rw [htracker, Matcher.scopesAt, consume_tracker]

-- ====================================================== held records

/-- A record that is held, or put out. -/
def Matched.Keeps (record : Record) (x : Matched) : Prop :=
  record ∈ x.records ++ x.matcher.held

/-- What one step has put out stays so; what it holds, the next one keeps. -/
theorem Matched.Keeps.andThen {record : Record} {x : Matched}
    {f : Matcher → Matched} (hx : x.Keeps record)
    (hf : record ∈ x.matcher.held → (f x.matcher).Keeps record) :
    (x.andThen f).Keeps record := by
  unfold Matched.Keeps Matched.andThen at *
  rcases List.mem_append.1 hx with h | h
  · simp [h]
  · have hkept := hf h
    rw [List.append_assoc]
    exact List.mem_append_right _ hkept

/-- What the second of two steps keeps, both keep. -/
theorem Matched.Keeps.after {record : Record} {x : Matched}
    {f : Matcher → Matched} (h : (f x.matcher).Keeps record) :
    (x.andThen f).Keeps record := by
  unfold Matched.Keeps Matched.andThen at *
  rw [List.append_assoc]
  exact List.mem_append_right _ h

/-- Closing a window puts out what was held. -/
theorem resolve_keeps {record : Record} {m : Matcher} (target : Option Site)
    (h : record ∈ m.held) : (m.resolve target).Keeps record := by
  unfold Matcher.resolve Matched.Keeps
  split
  · simpa using h
  · simp [h]

theorem heed_keeps {record : Record} {m : Matcher} (events : List ScopeEvent)
    (h : record ∈ m.held) : (m.heed events).Keeps record := by
  unfold Matcher.heed
  split
  · simpa [Matched.Keeps] using h
  · exact resolve_keeps _ h

theorem detach_keeps {reading : Reading} {record : Record} {m : Matcher}
    (offset : Nat) (h : record ∈ m.held) :
    (m.detach reading offset).Keeps record := by
  unfold Matcher.detach
  split
  · exact resolve_keeps none h
  · simpa [Matched.Keeps] using h

/-- Nor does another record, and the record itself is kept. -/
theorem emit_keeps {record : Record} {m : Matcher} (other : Record)
    (h : record = other ∨ record ∈ m.held) : (m.emit other).Keeps record := by
  unfold Matcher.emit Matched.Keeps
  rcases h with rfl | h
  · split <;> simp
  · split <;> simp [h]

theorem onOuter_keeps {record : Record} {m : Matcher} (c : Comment)
    (h : record ∈ m.held) : (m.onOuter c).Keeps record := by
  unfold Matcher.onOuter
  split
  · exact emit_keeps _ (.inr h)
  · refine (resolve_keeps none h).andThen fun hheld => ?_
    simpa [Matched.Keeps, Matcher.openWindow] using hheld

/-- Nor does a doc comment, which may close the window before it. -/
theorem onDoc_keeps {reading : Reading} {record : Record} {m : Matcher}
    (c : Comment) (h : record ∈ m.held) : (m.onDoc reading c).Keeps record := by
  unfold Matcher.onDoc
  refine Matched.Keeps.andThen (heed_keeps _ h) fun hheld => ?_
  split
  · exact emit_keeps _ (.inr hheld)
  · exact onOuter_keeps c hheld

/-- Nor does a window that has seen too much. -/
theorem countToken_keeps {reading : Reading} {record : Record} {m : Matcher}
    (h : record ∈ m.held) : (m.countToken reading).Keeps record := by
  unfold Matcher.countToken
  split
  · simpa [Matched.Keeps] using h
  · simp only
    split
    · refine Matched.Keeps.andThen ?_ fun hheld => resolve_keeps none hheld
      simpa [Matched.Keeps] using h
    · simpa [Matched.Keeps] using h

/-- So no comment loses a record that is held. -/
theorem onComment_keeps {reading : Reading} {record : Record} {m : Matcher}
    (c : Comment) (h : record ∈ m.held) :
    (m.onComment reading c).Keeps record := by
  refine (detach_keeps c.start h).andThen fun hheld => ?_
  split
  · exact onDoc_keeps c hheld
  · simpa [Matched.Keeps] using hheld

theorem feed_keeps {reading : Reading} {record : Record} {m : Matcher}
    (t : Token) (h : record ∈ m.held) : (m.feed reading t).Keeps record := by
  refine Matched.Keeps.andThen
    (by simpa [Matched.Keeps, Matcher.noteFirst] using h) ?_
  intro hheld
  exact (heed_keeps _ hheld).andThen countToken_keeps

theorem onToken_keeps {reading : Reading} {record : Record} {m : Matcher}
    (t : Token) (h : record ∈ m.held) : (m.onToken reading t).Keeps record := by
  unfold Matcher.onToken
  split
  · simpa [Matched.Keeps] using h
  · exact (detach_keeps t.start h).andThen (feed_keeps t)

/-- A held record stays held or is put out. -/
theorem step_keeps {reading : Reading} {record : Record} {m : Matcher}
    (item : Item) (h : record ∈ m.held) :
    (m.step reading item).Keeps record := by
  -- how far was read makes no difference to what is held
  cases item with
  | comment c => exact onComment_keeps c h
  | token t => exact onToken_keeps t h

/-- So over any stream a record that is held is held still, or put out. -/
theorem consume_keeps {reading : Reading} {record : Record}
    (items : List Item) :
    ∀ {m : Matcher}, record ∈ m.held →
    (m.consume reading items).Keeps record := by
  induction items with
  | nil =>
      intro m h
      exact List.mem_append_right _ h
  | cons item items ih =>
      intro m h
      exact (step_keeps item h).andThen ih

/-- A held record is put out in the end. -/
theorem run_held {reading : Reading} {record : Record} (items : List Item) :
    ∀ m : Matcher, record ∈ m.held →
    record ∈ (m.run reading items).records := by
  have hfrom : ∀ (x : Matched) (f : Matcher → Matched), x.Keeps record →
      (record ∈ x.matcher.held → record ∈ (f x.matcher).records) →
      record ∈ (x.andThen f).records := by
    intro x f hx hf
    rcases List.mem_append.1 hx with h | h
    · exact List.mem_append_left _ h
    · exact List.mem_append_right _ (hf h)
  induction items with
  | nil =>
      intro m h
      refine hfrom _ _ (heed_keeps _ h) fun hheld => ?_
      exact hfrom _ _ (resolve_keeps none hheld) fun hheld => hheld
  | cons item items ih =>
      intro m h
      exact hfrom _ _ (step_keeps item h) fun hheld => ih _ hheld

/-- What a front part of the stream holds or puts out, the run puts out. -/
theorem run_keeps {reading : Reading} {record : Record} {m : Matcher}
    {front : List Item} (h : (m.consume reading front).Keeps record)
    (back : List Item) :
    record ∈ (m.run reading (front ++ back)).records := by
  rw [run_append]
  rcases List.mem_append.1 h with h | h
  · exact List.mem_append_left _ h
  · exact List.mem_append_right _ (run_held back _ h)

end Marginalia
