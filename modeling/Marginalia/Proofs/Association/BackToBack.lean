/-
Outer doc comments one behind the other.

A comment waits for its declaration, and the next outer comment either takes
over from it or is left without one. Which of the two happens is settled by
whether a token was read in between, whatever token that was: with none, the
comment in front is orphaned (`run_superseded`); with one, the comment behind
is, as long as anything still waits for the statement in which it stands
(`run_interrupted`). So between two comments an annotation or a modifier
counts like the first token of the declaration itself.
-/
import Marginalia.Proofs.Association.Following

namespace Marginalia

-- ====================================================== what is read

/-- Whether the scopes read an item: it is a token that is not passed over. -/
def Item.isRead (reading : Reading) : Item → Bool
  | .comment _ => false
  | .token t => !Matcher.ignores reading t

/-- Whether an item is a token that is passed over. -/
def Item.isPassed (reading : Reading) : Item → Bool
  | .comment _ => false
  | .token t => Matcher.ignores reading t

/-- The tokens that are read of a stretch of the stream. -/
def readCount (reading : Reading) (items : List Item) : Nat :=
  items.countP (Item.isRead reading)

/-- A window counts the tokens that it passes. -/
theorem Window.passes_tokens (reading : Reading) (w : Window) (item : Item) :
    (w.passes reading item).tokens = w.tokens + readCount reading [item] := by
  cases item with
  | comment c => rfl
  | token t => cases h : Matcher.ignores reading t
    <;> simp [passes, readCount, Item.isRead, h]

-- =========================================================== windows

/-- A window that is open after an empty line was open before. -/
theorem detach_window {reading : Reading} {m : Matcher} {offset : Nat}
    {w : Window} (h : (m.detach reading offset).matcher.window = some w) :
    m.window = some w := by
  unfold Matcher.detach at h
  split at h
  · rw [resolve_window] at h
    cases h
  · exact h

/-- One that is open after events was open before them. -/
theorem heed_window {m : Matcher} {events : List ScopeEvent} {w : Window}
    (h : (m.heed events).matcher.window = some w) : m.window = some w := by
  unfold Matcher.heed at h
  split at h
  · exact h
  · rw [resolve_window] at h
    cases h

/-- One that is open after a token has counted it. -/
theorem countToken_window {reading : Reading} {m : Matcher} {w' : Window}
    (h : (m.countToken reading).matcher.window = some w') :
    ∃ w, m.window = some w ∧ w' = { w with tokens := w.tokens + 1 } := by
  unfold Matcher.countToken at h
  split at h
  · next hnone =>
    rw [hnone] at h
    cases h
  · next w hw =>
    simp only at h
    split at h
    · simp only [Matched.andThen, resolve_window] at h
      cases h
    · exact ⟨w, hw, (Option.some.inj h).symm⟩

/-- A window that is open behind an item which is no doc comment was open in
front of it, and has counted the item. -/
theorem step_window {reading : Reading} {m : Matcher} {item : Item}
    {w' : Window} (hdoc : item.doc? = none)
    (h : (m.step reading item).matcher.window = some w') :
    ∃ w, m.window = some w ∧ w' = w.passes reading item := by
  cases item with
  | comment c =>
      have hplain : c.isDoc = false := by simpa [Item.doc?] using hdoc
      simp only [Matcher.step, Matcher.onComment, hplain, Matched.andThen] at h
      exact ⟨w', detach_window h, rfl⟩
  | token t =>
      simp only [Matcher.step, Matcher.onToken] at h
      cases hread : Matcher.ignores reading t with
      | true =>
          rw [hread] at h
          exact ⟨w', h, by simp [Window.passes, hread]⟩
      | false =>
          rw [hread] at h
          obtain ⟨counted, hcounted, rfl⟩ := countToken_window h
          have hnoted := heed_window hcounted
          simp only [Matcher.noteFirst, Option.map_eq_some_iff] at hnoted
          obtain ⟨w, hw, rfl⟩ := hnoted
          exact ⟨w, detach_window hw, by simp [Window.passes, hread]⟩

/-- Over a stretch without doc comments, a window counts the tokens that are
read. -/
theorem consume_window {reading : Reading} (items : List Item) :
    ∀ {m : Matcher} {w' : Window}, items.filterMap Item.doc? = [] →
      (m.consume reading items).matcher.window = some w' →
      ∃ w, m.window = some w
        ∧ w'.tokens = w.tokens + readCount reading items := by
  induction items with
  | nil =>
      intro m w' _ h
      exact ⟨w', h, rfl⟩
  | cons item items ih =>
      intro m w' hdocs h
      have hdoc : item.doc? = none :=
        List.filterMap_eq_nil_iff.1 hdocs item List.mem_cons_self
      have hrest : items.filterMap Item.doc? = [] := by
        rwa [List.filterMap_cons_none hdoc] at hdocs
      obtain ⟨w₁, hw₁, htokens⟩ := ih hrest h
      obtain ⟨w, hw, rfl⟩ := step_window hdoc hw₁
      refine ⟨w, hw, ?_⟩
      rw [htokens, Window.passes_tokens, Nat.add_assoc, readCount, readCount,
        ← List.countP_append]
      rfl

-- ======================================================== superseded

/-- The comment waits, and nothing was read behind it. -/
def Matcher.WaitsUnread (m : Matcher) (c : Comment) : Prop :=
  ∃ w, m.window = some w ∧ w.comment = c ∧ w.tokens = 0

/-- A record of the comment without a declaration is held, or put out. -/
def Matched.Orphans (x : Matched) (c : Comment) : Prop :=
  ∃ depth, x.Keeps ⟨c, none, depth⟩

/-- A comment orphaned by the second step is orphaned by both. -/
theorem Matched.Orphans.after {c : Comment} {x : Matched}
    {f : Matcher → Matched} (h : (f x.matcher).Orphans c) :
    (x.andThen f).Orphans c :=
  h.imp fun _ => .after

/-- So is one orphaned by the first, as the second keeps its record. -/
theorem Matched.Orphans.andThen {c : Comment} {x : Matched}
    {f : Matcher → Matched} (h : x.Orphans c)
    (hf : ∀ record ∈ x.matcher.held, (f x.matcher).Keeps record) :
    (x.andThen f).Orphans c :=
  h.imp fun _ hkeeps => hkeeps.andThen (hf _)

/-- A comment that waits is orphaned when its window closes without a
declaration. -/
theorem resolve_orphans {m : Matcher} {c : Comment} (h : m.WaitsUnread c) :
    (m.resolve none).Orphans c := by
  obtain ⟨w, hw, rfl, -⟩ := h
  exact ⟨w.depth, by simp [Matcher.resolve, hw, Matched.Keeps]⟩

/-- A look back for an empty line orphans the comment, or finds none and does
nothing. -/
theorem detach_unread {reading : Reading} {m : Matcher} {c : Comment}
    (h : m.WaitsUnread c) (offset : Nat) :
    (m.detach reading offset).Orphans c
      ∨ Text.hasEmptyLine reading.text m.lastEnd offset = false
        ∧ m.detach reading offset = { matcher := m } := by
  cases hgap : Text.hasEmptyLine reading.text m.lastEnd offset with
  | false => exact .inr ⟨rfl, by simp [Matcher.detach, hgap]⟩
  | true =>
      have hunread : m.window.any (·.tokens == 0) = true := by
        obtain ⟨w, hw, -, htokens⟩ := h
        simp [hw, htokens]
      rw [Matcher.detach, hgap, hunread]
      exact .inl (resolve_orphans h)

/-- A comment behind which nothing was read waits on at the end of a
statement. -/
theorem heed_ended {m : Matcher} {c : Comment} (h : m.WaitsUnread c)
    {events : List ScopeEvent}
    (hevents : events = [] ∨ ∃ depth site, events = [.statement depth site]) :
    m.heed events = { matcher := m } := by
  obtain ⟨w, hw, -, htokens⟩ := h
  have hstays : events.findSome? w.decide = none := by
    rcases hevents with rfl | ⟨depth, site, rfl⟩
    · rfl
    · simp [Window.decide, htokens]
  simp only [Matcher.heed, hw, Option.bind_some, hstays]

/-- A line break ends a statement of which nothing was read behind the
comment. -/
theorem heed_unread {reading : Reading} {m : Matcher} {c : Comment}
    (h : m.WaitsUnread c) (tracker : Tracker) (offset : Nat) :
    m.heed (tracker.breakBefore reading.rules reading.scopeLines offset).2
      = { matcher := m } := by
  refine heed_ended h ?_
  rw [Tracker.breakBefore]
  rcases Tracker.breakLine_cases reading.rules reading.scopeLines tracker offset
    none with hb | hb
  · exact .inl (by rw [hb])
  · exact .inr ⟨_, _, by rw [hb]⟩

/-- The next outer comment takes over from a comment behind which nothing was
read. -/
theorem onOuter_supersedes {m : Matcher} {c : Comment} (h : m.WaitsUnread c)
    (d : Comment) :
    (m.onOuter d).Orphans c := by
  have hidle : ¬m.window.any (0 < ·.tokens) = true := by
    obtain ⟨w, hw, -, htokens⟩ := h
    simp [hw, htokens]
  rw [Matcher.onOuter, if_neg hidle]
  exact (resolve_orphans h).andThen fun record hheld =>
    List.mem_append_right _ hheld

/-- An outer doc comment orphans the comment that waits with nothing read
behind it. -/
theorem onDoc_supersedes {reading : Reading} {m : Matcher} {c d : Comment}
    (houter : d.placement = .outer) (h : m.WaitsUnread c) :
    (m.onDoc reading d).Orphans c := by
  have hbroken : ∀ tracker, ({ m with tracker } : Matcher).WaitsUnread c :=
    fun _ => h
  unfold Matcher.onDoc
  simp only [heed_unread (hbroken _), houter]
  exact .after (onOuter_supersedes (hbroken _) d)

/-- An inner doc comment leaves a comment waiting, and an outer one takes over
from it. -/
theorem onDoc_unread {reading : Reading} {m : Matcher} {c : Comment}
    (h : m.WaitsUnread c) (d : Comment) :
    (m.onDoc reading d).Orphans c
      ∨ (m.onDoc reading d).matcher.WaitsUnread c := by
  cases hplacement : d.placement with
  | outer => exact .inl (onDoc_supersedes hplacement h)
  | inner =>
      have hbroken : ∀ tracker, ({ m with tracker } : Matcher).WaitsUnread c :=
        fun _ => h
      have hemit : ∀ (m : Matcher) (record : Record), m.WaitsUnread c →
          (m.emit record).matcher.WaitsUnread c := by
        intro m record hm
        unfold Matcher.emit
        split <;> exact hm
      unfold Matcher.onDoc
      simp only [heed_unread (hbroken _), hplacement]
      exact .inr (hemit _ _ (hbroken _))

theorem step_supersedes {reading : Reading} {m : Matcher} {c d : Comment}
    (hdoc : d.isDoc = true) (houter : d.placement = .outer)
    (h : m.WaitsUnread c) :
    (m.step reading (.comment d)).Orphans c := by
  -- how far was read makes no difference to what is held
  show (m.onComment reading d).Orphans c
  rw [Matcher.onComment]
  simp only [hdoc, if_true]
  rcases detach_unread h d.start with horphans | ⟨-, hdetach⟩
  · exact horphans.andThen fun record hheld => onDoc_keeps d hheld
  · rw [hdetach]
    exact .after (onDoc_supersedes houter h)

/-- An item that is not read orphans the comment, or leaves it waiting; then
there is no empty line in front of the item, if it looks back for one. -/
theorem step_unread {reading : Reading} {m : Matcher} {c : Comment}
    {item : Item} (hread : item.isRead reading = false) (h : m.WaitsUnread c) :
    (m.step reading item).Orphans c
      ∨ (m.step reading item).matcher.WaitsUnread c
        ∧ (item.isPassed reading = false →
          Text.hasEmptyLine reading.text m.lastEnd item.start = false) := by
  cases item with
  | comment d =>
      show (m.onComment reading d).Orphans c
        ∨ (m.onComment reading d).matcher.WaitsUnread c ∧ _
      rcases detach_unread h d.start with horphans | ⟨hgap, hdetach⟩
      · refine .inl (horphans.andThen fun record hheld => ?_)
        split
        · exact onDoc_keeps d hheld
        · exact List.mem_append_right _ hheld
      · rw [Matcher.onComment, hdetach]
        cases hdoc : d.isDoc with
        | true =>
            rcases onDoc_unread h d with horphans | hwaits
            · exact .inl (.after horphans)
            · exact .inr ⟨hwaits, fun _ => hgap⟩
        | false => exact .inr ⟨h, fun _ => hgap⟩
  | token t =>
      have hignored : Matcher.ignores reading t = true := by
        simpa [Item.isRead] using hread
      rw [Matcher.step]
      simp only [Matcher.onToken, hignored, if_true]
      exact .inr ⟨h, by simp [Item.isPassed, hignored]⟩

/-- An outer comment is orphaned at once, or waits. -/
theorem onOuter_waits (m : Matcher) (c : Comment) :
    (m.onOuter c).Orphans c ∨ (m.onOuter c).matcher.WaitsUnread c := by
  unfold Matcher.onOuter
  split
  · exact .inl ⟨m.tracker.depth, emit_keeps _ (.inl rfl)⟩
  · exact .inr ⟨_, rfl, rfl, rfl⟩

/-- An outer comment is orphaned at once, or waits. -/
theorem step_waits {reading : Reading} {c : Comment} (hdoc : c.isDoc = true)
    (houter : c.placement = .outer) (m : Matcher) :
    (m.step reading (.comment c)).Orphans c
      ∨ (m.step reading (.comment c)).matcher.WaitsUnread c := by
  show (m.onComment reading c).Orphans c
    ∨ (m.onComment reading c).matcher.WaitsUnread c
  rw [Matcher.onComment]
  simp only [hdoc, if_true, Matcher.onDoc, houter]
  exact (onOuter_waits _ c).imp (fun horphans => .after (.after horphans)) id

/-- Over a stretch of which nothing is read, a comment waits for the next one
to take over. -/
theorem consume_superseded {reading : Reading} {c d : Comment}
    (hdoc : d.isDoc = true) (houter : d.placement = .outer)
    (between : List Item) :
    ∀ {m : Matcher}, (∀ item ∈ between, item.isRead reading = false) →
      m.WaitsUnread c → (m.consume reading (between ++ [.comment d])).Orphans
        c := by
  induction between with
  | nil =>
      intro m _ h
      exact (step_supersedes hdoc houter h).andThen fun record =>
        consume_keeps []
  | cons item between ih =>
      intro m hunread h
      rcases step_unread (hunread item List.mem_cons_self) h
        with horphans | ⟨hwaits, -⟩
      · exact horphans.andThen fun record => consume_keeps _
      · exact .after
          (ih (fun i hi => hunread i (List.mem_cons_of_mem item hi)) hwaits)

/-- The record of an outer comment from which the next one takes over. -/
theorem run_superseded {reading : Reading} {before between after : List Item}
    {c d : Comment} (hc : c.isDoc = true) (hcouter : c.placement = .outer)
    (hd : d.isDoc = true) (hdouter : d.placement = .outer)
    (hunread : ∀ item ∈ between,
      item.doc? = none ∧ item.isRead reading = false) :
    ∃ depth, ⟨c, none, depth⟩ ∈ (Matcher.run reading {}
      (before ++ .comment c :: (between ++ .comment d :: after))).records := by
  have horphans : ∀ m : Matcher,
      (m.consume reading (.comment c :: (between ++ [.comment d]))).Orphans
        c := by
    intro m
    rcases step_waits hc hcouter m with horphans | hwaits
    · exact horphans.andThen fun record => consume_keeps _
    · exact .after (consume_superseded hd hdouter between
        (fun i hi => (hunread i hi).2) hwaits)
  obtain ⟨depth, hkeeps⟩ := horphans (Matcher.consume reading {} before).matcher
  refine ⟨depth, ?_⟩
  have hsplit : Item.comment c :: (between ++ .comment d :: after)
      = (.comment c :: (between ++ [.comment d])) ++ after := by simp
  rw [run_append, hsplit]
  exact List.mem_append_right _ (run_keeps hkeeps after)

-- ============================================================= scans

/-- The comment has a record, and none with a declaration. -/
def Unbound (records : List Record) (c : Comment) : Prop :=
  (∃ record ∈ records, record.comment = c)
    ∧ ∀ record ∈ records, record.comment = c → record.target = none

/-- A comment is still waiting when this one is dealt with. -/
def Matcher.WaitsAcross (reading : Reading) (m : Matcher) (c : Comment) :
    Prop :=
  ∃ w, m.window = some w
    ∧ (m.tracker.breakBefore reading.rules reading.scopeLines
      c.start).2.findSome? w.decide
      = none

/-- A comment with a record of no declaration has no other record. -/
theorem unbound_of_mem {rules : Rules} {options : ScanOptions}
    {text : List Char} {c : Comment} (h : ∃ depth, ⟨c, none, depth⟩
      ∈ (Matcher.run (rules.reading options text) {}
        (rules.items text)).records) :
    Unbound (Matcher.run (rules.reading options text) {}
      (rules.items text)).records c := by
  obtain ⟨depth, hmem⟩ := h
  refine ⟨⟨_, hmem, rfl⟩, fun record hrecord hcomment => ?_⟩
  rw [(run_records_once rules options text record hrecord).2 _ hmem hcomment]

/-- Of two outer doc comments with no doc comment in between, the one in front
is unbound if no token in between is read. If one is, the one behind is
unbound while a comment waits. -/
theorem earlier_comment_yields_unless_token_read (dialect : Dialect)
    (settings : ScanSettings) (options : ScanOptions)
    (hcheck : settings.check = .ok options) (text : List Char) :
    ∃ rules result, dialect.rules.withOptions options = .ok rules
      ∧ dialect.rules.scan options text = .ok result
      ∧ ∀ before between after c d,
        rules.items text = before ++ .comment
          c :: (between ++ .comment d :: after) →
        c.isDoc = true → c.placement = .outer → d.isDoc = true →
        d.placement = .outer →
        between.filterMap Item.doc? = [] →
        (readCount (rules.reading options text) between = 0 →
          Unbound result.records c)
          ∧ (0 < readCount (rules.reading options text) between →
            (Matcher.consume (rules.reading options text) {}
              (before ++ .comment c :: between)).matcher.WaitsAcross
                (rules.reading options text) d → Unbound result.records d) := by
  obtain ⟨rules, result, hrules, hscan, hrecords⟩ := dialect.scan_ok hcheck text
  refine ⟨rules, result, hrules, hscan, ?_⟩
  rw [hrecords]
  intro before between after c d hsplit hc hcouter hd hdouter hdocs
  constructor
  · intro hnone
    have hunread : ∀ item ∈ between,
        item.doc? = none ∧ item.isRead (rules.reading options text)
          = false := by
      intro item hitem
      refine ⟨List.filterMap_eq_nil_iff.1 hdocs item hitem, ?_⟩
      simpa using List.countP_eq_zero.1 hnone item hitem
    apply unbound_of_mem
    rw [hsplit]
    exact run_superseded hc hcouter hd hdouter hunread
  · rintro hread ⟨w, hw, hdecide⟩
    apply unbound_of_mem
    rw [hsplit, ← List.cons_append, ← List.append_assoc]
    refine run_interrupted hd hdouter ⟨w, hw, ?_, hdecide⟩
    rw [List.append_cons, consume_append] at hw
    obtain ⟨w₀, -, htokens⟩ := consume_window between hdocs hw
    omega

/-- Two doc comments with a plain one between them. -/
def plainBetweenBlocks : List Char :=
  "/**a*/\n//n\n/**b*/\nclass X\x7b\x7d".toList

/-- A plain comment in between is not read. -/
theorem block_comment_yields_over_plain_comment :
    ({} : ScanSettings).check = .ok {}
      ∧ ∃ result c, Dialect.java.rules.scan {} plainBetweenBlocks
          = .ok result
        ∧ c.start = 0 ∧ Unbound result.records c := by
  obtain ⟨rules, result, hrules, hscan, hyields⟩ :=
    earlier_comment_yields_unless_token_read .java {} {} rfl
      plainBetweenBlocks
  have happlied : Dialect.java.rules = rules := Except.ok.inj hrules
  rw [← happlied] at hyields
  have hitems : Dialect.java.rules.items plainBetweenBlocks
      = [] ++ .comment ⟨"a", .doc, 0, 6, .java, .block, .outer, 1⟩
        :: ([.comment ⟨"n", .plain, 7, 10, .java, .line, .outer, 2⟩]
          ++ .comment ⟨"b", .doc, 11, 17, .java, .block, .outer, 3⟩
          :: [.token ⟨.word, 18, "class"⟩, .token ⟨.word, 24, "X"⟩,
            .token ⟨.punct, 25, "\x7b"⟩, .token ⟨.punct, 26, "\x7d"⟩]) := by
    rw [Dialect.items_eq]
    decide +kernel
  exact ⟨rfl, result, _, hscan, rfl,
    (hyields _ _ _ _ _ hitems rfl rfl rfl rfl rfl).1 rfl⟩

/-- An annotation between two doc comments. -/
def annotationBetween : List Char := "///a\n@A\n///b\nclass X\x7b\x7d".toList

/-- Behind an annotation, the comment in front is bound and the one behind is
not. -/
theorem annotation_keeps_earlier_comment :
    (Dialect.java.rules.scan {} annotationBetween).toOption.map
        (fun result => result.records.map fun record =>
          (record.comment.text, record.target.map (·.name)))
      = some [("a", some "X"), ("b", none)] := by
  have hscan : Dialect.java.rules.scan {} annotationBetween
      = .ok (Dialect.java.rules.index {} annotationBetween).result := rfl
  simp only [hscan, Except.toOption, Option.map_some, index_records,
    Dialect.items_eq]
  decide +kernel

end Marginalia
