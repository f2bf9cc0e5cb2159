/-
Matching elsewhere in the text.

Two matchers that read the same items at different places of their texts put
out the same records, moved (`run_moved`, `consume_moved`). The relation
between them goes through every operation. Besides scopes and windows it is
about how far the matchers have read, since an empty line behind that place
parts a comment from its code: either the two places are apart by the
distance of the texts, or both lie behind everything that is still to come
(`Reached`). The latter is for a directive at the end of a text, which may
end differently in a longer one.
-/
import Marginalia.Proofs.Association.Prefix
import Marginalia.Proofs.Scope.Moved

namespace Marginalia

-- ============================================================ moving

/-- The comment, `k` characters and `l` lines further on. -/
def Comment.moved (k l : Nat) (c : Comment) : Comment :=
  { c with start := c.start + k, stop := c.stop + k, line := c.line + l }

def Item.moved (k l : Nat) : Item → Item
  | .comment c => .comment (c.moved k l)
  | .token t => .token (t.moved k)

/-- The record of the comment, `k` characters and `l` lines further on. -/
def Record.moved (k l : Nat) (record : Record) : Record where
  comment := record.comment.moved k l
  target := record.target.map (·.moved k l)
  depth := record.depth

def Window.moved (k l : Nat) (w : Window) : Window :=
  { w with
    comment := w.comment.moved k l, firstStart := w.firstStart.map (· + k) }

/-- A reading of a text, and one of a text that has it `k` characters and `l`
lines further on. No line of either is passed over. -/
structure Reading.Moved (k l : Nat) (r r' : Reading) : Prop where
  rules : r'.rules = r.rules
  window : r'.window = r.window
  ignored : r.ignored = []
  ignored' : r'.ignored = []
  lines : LinesMoved k l r.text.length r.scopeLines r'.scopeLines
  slice : ∀ start stop, stop ≤ r.text.length →
    Text.slice r'.text (start + k) (stop + k) = Text.slice r.text start stop

/-- An item of a text and that of the other: the same further on, or a
directive that goes up to the end of its text, however that ends. -/
inductive Item.Moved (r : Reading) (k l : Nat) : Item → Item → Prop where
  | same (item : Item) (start : item.start < r.text.length)
    (stop : item.stop ≤ r.text.length) :
      Item.Moved r k l item (item.moved k l)
  | directive (token token' : Token) (kind : token.kind = .directive)
      (kind' : token'.kind = .directive)
      (breaks : r.rules.newlineTerminates = false)
      (start : token.start < r.text.length)
      (start' : token'.start = token.start + k)
      (stop : r.text.length ≤ token.stop + 1)
      (stop' : r.text.length + k ≤ token'.stop + 1) :
      Item.Moved r k l (.token token) (.token token')

/-- A matcher and one that has read the same further on, how far apart. -/
structure Matcher.Moved (k l limit : Nat) (m m' : Matcher) : Prop where
  tracker : m.tracker.Moved k l limit m'.tracker
  window : m'.window = m.window.map (·.moved k l)
  held : m'.held = m.held.map (·.moved k l)

/-- What a matcher puts out, and what the other puts out of it. -/
structure Matched.Moved (k l limit : Nat) (x x' : Matched) : Prop where
  matcher : x.matcher.Moved k l limit x'.matcher
  records : x'.records = x.records.map (·.moved k l)

section

variable {k l limit : Nat} {r r' : Reading} {m m' : Matcher}

theorem Matcher.Moved.matched (h : m.Moved k l limit m') :
    Matched.Moved k l limit { matcher := m } { matcher := m' } :=
  ⟨h, rfl⟩

theorem Matcher.Moved.withTracker (h : m.Moved k l limit m') {t t' : Tracker}
    (ht : t.Moved k l limit t') :
    Matcher.Moved k l limit { m with tracker := t } { m' with tracker := t' } :=
  ⟨ht, h.window, h.held⟩

/-- How far was read does not matter here. -/
theorem Matched.Moved.reach {x x' : Matched} (h : x.Moved k l limit x')
    (reached reached' : Nat) :
    Matched.Moved k l limit
      { x with matcher := { x.matcher with lastEnd := reached } }
      { x' with matcher := { x'.matcher with lastEnd := reached' } } :=
  ⟨⟨h.matcher.tracker, h.matcher.window, h.matcher.held⟩, h.records⟩

/-- Matchers that move and go on alike give moved records one after the
other. -/
theorem Matched.Moved.andThen {x x' : Matched} {f f' : Matcher → Matched}
    (hx : x.Moved k l limit x')
    (hf : x.matcher.Moved k l limit x'.matcher →
      (f x.matcher).Moved k l limit (f' x'.matcher)) :
    (x.andThen f).Moved k l limit (x'.andThen f') := by
  have hsecond := hf hx.matcher
  refine ⟨hsecond.matcher, ?_⟩
  simp only [Matched.andThen, List.map_append, hx.records, hsecond.records]

-- =========================================================== windows

/-- A window closes on the moved event as it does on the event. -/
theorem Window.moved_decide (w : Window) (event : ScopeEvent) :
    (w.moved k l).decide (event.moved k l)
      = (w.decide event).map (·.map (·.moved k l)) := by
  cases event with
  | directive depth => rfl
  | pop depth frame =>
      exact (apply_ite (Option.map (Option.map (Site.moved k l)))
        (depth < w.depth) (some none) none).symm
  | statement depth site =>
      exact (apply_ite (Option.map (Option.map (Site.moved k l)))
        ((depth == w.depth && 0 < w.tokens) = true) (some site) none).symm
  | push depth opening nested =>
      have hargument : (w.moved k l).documentsArgument (opening.moved k l)
          = w.documentsArgument opening := by
        cases opening with
        | block brace => rfl
        | declaration site =>
            rw [Bool.eq_iff_iff]
            cases hf : w.firstStart <;>
              simp [documentsArgument, Window.moved, Opening.moved,
                Opening.site?, Site.moved, hf]
      have hdepth : (w.moved k l).depth = w.depth := rfl
      simp only [decide, ScopeEvent.moved, hargument, hdepth]
      by_cases hother : (depth != w.depth) = true
      · simp only [hother, if_true, Option.map_none]
      · by_cases hfree : (!nested || w.documentsArgument opening) = true
        · simp only [hother, hfree, Bool.false_eq_true, if_true, if_false,
            Opening.moved_site?, Option.map_some]
        · simp only [hother, hfree, Bool.false_eq_true, if_false]
          cases opening <;> rfl

/-- The event that decides a window is the same one, moved. -/
theorem findSome?_moved (w : Window) (events : List ScopeEvent) :
    (events.map (·.moved k l)).findSome? (w.moved k l).decide
      = (events.findSome? w.decide).map (·.map (·.moved k l)) := by
  rw [List.findSome?_map, List.map_findSome?]
  refine congrArg (List.findSome? · events) (funext fun event => ?_)
  exact Window.moved_decide w event

namespace Matcher.Moved

/-- The window closes with the moved declaration, in the same record moved. -/
theorem resolve (h : m.Moved k l limit m') (target : Option Site) :
    (m.resolve target).Moved k l limit
      (m'.resolve (target.map (·.moved k l))) := by
  unfold Matcher.resolve
  rw [h.window]
  cases hw : m.window with
  | none =>
      exact h.matched
  | some w =>
      refine ⟨⟨h.tracker, rfl, rfl⟩, ?_⟩
      rw [h.held]
      rfl

/-- Events that decide the window of one matcher decide that of the other. -/
theorem heed (h : m.Moved k l limit m') (events : List ScopeEvent) :
    (m.heed events).Moved k l limit (m'.heed (events.map (·.moved k l))) := by
  unfold Matcher.heed
  rw [h.window]
  cases hw : m.window with
  | none => exact h.matched
  | some w =>
      simp only [Option.map_some, Option.bind_some, findSome?_moved]
      cases events.findSome? w.decide with
      | none => exact h.matched
      | some target => exact h.resolve target

/-- Where the same lines are empty, both windows close or neither does. -/
theorem detach (h : m.Moved k l limit m') {offset offset' : Nat}
    (hempty : m.window ≠ none → Text.hasEmptyLine r'.text m'.lastEnd offset'
      = Text.hasEmptyLine r.text m.lastEnd offset) :
    (m.detach r offset).Moved k l limit (m'.detach r' offset') := by
  unfold Matcher.detach
  rw [h.window]
  cases hw : m.window with
  | none => exact h.matched
  | some w =>
      rw [hempty (by rw [hw]; exact Option.some_ne_none w)]
      have htokens : (w.moved k l).tokens = w.tokens := rfl
      simp only [Option.map_some, Option.any_some, htokens]
      split
      · exact h.resolve none
      · exact h.matched

-- ========================================================== comments

/-- A record is put out by both matchers or held by both. -/
theorem emit (h : m.Moved k l limit m') (record : Record) :
    (m.emit record).Moved k l limit (m'.emit (record.moved k l)) := by
  unfold Matcher.emit
  rw [h.window, Option.isSome_map]
  split
  · refine ⟨⟨h.tracker, rfl, ?_⟩, rfl⟩
    rw [List.map_append, h.held]
    rfl
  · exact ⟨h, rfl⟩

/-- A window opens in both, for the moved comment. -/
theorem openWindow (h : m.Moved k l limit m') (c : Comment) :
    (m.openWindow c).Moved k l limit (m'.openWindow (c.moved k l)) := by
  refine ⟨h.tracker, ?_, h.held⟩
  simp only [Matcher.openWindow, h.tracker.depth, h.tracker.parens,
    Option.map_some]
  rfl

/-- An outer doc comment takes over in both, or documents nothing in both. -/
theorem onOuter (h : m.Moved k l limit m') (c : Comment) :
    (m.onOuter c).Moved k l limit (m'.onOuter (c.moved k l)) := by
  have hbusy : m'.window.any (0 < ·.tokens) = m.window.any (0 < ·.tokens) := by
    rw [h.window]
    cases m.window <;> rfl
  unfold Matcher.onOuter
  rw [hbusy, h.tracker.depth]
  split
  · exact h.emit ⟨c, none, m.tracker.depth⟩
  · exact (h.resolve none).andThen fun hm => (hm.openWindow c).matched

/-- A doc comment that lies in the text is bound inwards or outwards by both. -/
theorem onDoc (hr : r.Moved k l r') (h : m.Moved k l r.text.length m')
    {c : Comment} (hstart : c.start ≤ r.text.length) :
    (m.onDoc r c).Moved k l r.text.length (m'.onDoc r' (c.moved k l)) := by
  obtain ⟨hbroken, hevents⟩ := h.tracker.breakLine r.rules hr.lines hstart none
  unfold Matcher.onDoc Tracker.breakBefore
  rw [hr.rules]
  have hheed := (h.withTracker hbroken).heed
    (m.tracker.breakLine r.rules r.scopeLines c.start none).2
  rw [← hevents] at hheed
  refine hheed.andThen fun hm => ?_
  have hplace : (c.moved k l).placement = c.placement := rfl
  rw [hplace]
  cases c.placement with
  | inner =>
      simp only [hm.tracker.enclosingSite, hm.tracker.depth]
      exact hm.emit ⟨c, _, _⟩
  | outer => exact hm.onOuter c

/-- A comment that lies in the text is read alike where it was and further on.
Only the empty lines in front of it are asked of the texts. -/
theorem onComment (hr : r.Moved k l r') (h : m.Moved k l r.text.length m')
    {c : Comment} (hstart : c.start ≤ r.text.length) (hempty : m.window ≠ none →
      Text.hasEmptyLine r'.text m'.lastEnd (c.start + k)
      = Text.hasEmptyLine r.text m.lastEnd c.start) :
    (m.onComment r c).Moved k l r.text.length
      (m'.onComment r' (c.moved k l)) := by
  unfold Matcher.onComment
  refine (h.detach hempty).andThen fun hm => ?_
  have hdoc : (c.moved k l).isDoc = c.isDoc := rfl
  rw [hdoc]
  split
  · exact hm.onDoc hr hstart
  · exact hm.matched

-- ============================================================ tokens

/-- A token counts in both windows, which have seen equally many. -/
theorem countToken (hr : r.Moved k l r') (h : m.Moved k l limit m') :
    (m.countToken r).Moved k l limit (m'.countToken r') := by
  unfold Matcher.countToken
  rw [h.window]
  cases hw : m.window with
  | none => exact h.matched
  | some w =>
      have hcounted : Matcher.Moved k l limit
          { m with window := some { w with tokens := w.tokens + 1 } }
          { m' with
            window := some { w.moved k l with tokens := w.tokens + 1 } } :=
        ⟨h.tracker, rfl, h.held⟩
      have htokens : (w.moved k l).tokens = w.tokens := rfl
      simp only [Option.map_some, hr.window, htokens]
      by_cases hmany : r.window < w.tokens + 1
      · rw [if_pos hmany, if_pos hmany]
        refine Matched.Moved.andThen ⟨hcounted, rfl⟩ fun hm => ?_
        exact hm.resolve none
      · rw [if_neg hmany, if_neg hmany]
        exact hcounted.matched

/-- A token that both take for the same. -/
theorem feed (hr : r.Moved k l r') (h : m.Moved k l limit m')
    {token token' : Token} (hstart : token'.start = token.start + k)
    (hfed : (m.tracker.feed r.rules r.scopeLines token).Moved k l limit
      (m'.tracker.feed r'.rules r'.scopeLines token')) :
    (m.feed r token).Moved k l limit (m'.feed r' token') := by
  have hnoted : (m'.noteFirst token').window
      = (m.noteFirst token).window.map (·.moved k l) := by
    simp only [Matcher.noteFirst, h.window, hstart]
    cases m.window with
    | none => rfl
    | some w => cases w with | mk _ _ _ firstStart _ => cases firstStart <;> rfl
  unfold Matcher.feed
  refine Matched.Moved.andThen ?_ fun hm => ?_
  · exact ⟨⟨hfed.tracker, hnoted, h.held⟩, rfl⟩
  have hheed := hm.heed (m.tracker.feed r.rules r.scopeLines token).events
  rw [← hfed.events] at hheed
  exact hheed.andThen fun hm => hm.countToken hr

/-- A token is read alike where it was and further on, if the trackers read it
so and the same lines are empty in front of it. -/
theorem onToken (hr : r.Moved k l r') (h : m.Moved k l limit m')
    {token token' : Token} (hstart : token'.start = token.start + k)
    (hempty : m.window ≠ none →
      Text.hasEmptyLine r'.text m'.lastEnd (token.start + k)
      = Text.hasEmptyLine r.text m.lastEnd token.start)
    (hfed : ∀ {t t' : Tracker}, t.Moved k l limit t' →
      (t.feed r.rules r.scopeLines token).Moved k l limit
        (t'.feed r'.rules r'.scopeLines token')) :
    (m.onToken r token).Moved k l limit (m'.onToken r' token') := by
  have hread : Matcher.ignores r token = false := by
    simp [Matcher.ignores, hr.ignored]
  have hread' : Matcher.ignores r' token' = false := by
    simp [Matcher.ignores, hr.ignored']
  unfold Matcher.onToken
  simp only [hread, hread', Bool.false_eq_true, if_false, hstart]
  exact (h.detach hempty).andThen fun hm => hm.feed hr hstart (hfed hm.tracker)

end Matcher.Moved

-- ====================================================== how far read

/-- Two matchers have read up to places that are apart by the distance of
their texts, or up to behind all that is still to come. -/
def Reached (k limit : Nat) (reached reached' : Nat) : Prop :=
  max k reached' = reached + k
    ∨ (limit ≤ reached + 1 ∧ limit + k ≤ reached' + 1)

/-- How far the items reach moves with them. -/
theorem Reached.item {reached reached' : Nat} {item item' : Item}
    (h : Reached k r.text.length reached reached')
    (hitem : Item.Moved r k l item item') :
    Reached k r.text.length (max reached item.stop)
      (max reached' item'.stop) := by
  unfold Reached at *
  cases hitem with
  | same item _ _ =>
      have hstop : (item.moved k l).stop = item.stop + k := by
        cases item with
        | comment c => rfl
        | token t => exact t.moved_stop k
      omega
  | directive token token' _ _ _ _ _ hstop hstop' =>
      simp only [Item.stop]
      omega

/-- From there on an empty line is found in both texts or in none. -/
theorem Reached.hasEmptyLine (hr : r.Moved k l r')
    {reached reached' offset : Nat}
    (h : Reached k r.text.length reached reached') (hk : k ≤ reached')
    (hoffset : offset < r.text.length) :
    Text.hasEmptyLine r'.text reached' (offset + k)
      = Text.hasEmptyLine r.text reached offset := by
  unfold Text.hasEmptyLine
  rcases h with h | ⟨h, h'⟩
  · have hsame : reached' = reached + k := by omega
    rw [hsame, hr.slice _ _ (Nat.le_of_lt hoffset)]
  · -- both slices are empty
    have hnone : ∀ (text : List Char) {start stop : Nat}, stop ≤ start →
        Text.slice text start stop = [] := by
      intro text start stop hle
      rw [Text.slice, Nat.sub_eq_zero_of_le hle, List.take_zero]
    rw [hnone r'.text (by omega), hnone r.text (by omega)]

/-- Closing a window leaves the furthest offset read as it is. So do the steps
below, down to the one that reads an item. -/
theorem resolve_lastEnd (m : Matcher) (target : Option Site) :
    (m.resolve target).matcher.lastEnd = m.lastEnd := by
  unfold Matcher.resolve
  split <;> rfl

theorem heed_lastEnd (m : Matcher) (events : List ScopeEvent) :
    (m.heed events).matcher.lastEnd = m.lastEnd := by
  unfold Matcher.heed
  split
  · rfl
  · exact resolve_lastEnd _ _

theorem detach_lastEnd (r : Reading) (m : Matcher) (offset : Nat) :
    (m.detach r offset).matcher.lastEnd = m.lastEnd := by
  unfold Matcher.detach
  split
  · exact resolve_lastEnd _ _
  · rfl

theorem emit_lastEnd (m : Matcher) (record : Record) :
    (m.emit record).matcher.lastEnd = m.lastEnd := by
  unfold Matcher.emit
  split <;> rfl

theorem onDoc_lastEnd (r : Reading) (m : Matcher) (c : Comment) :
    (m.onDoc r c).matcher.lastEnd = m.lastEnd := by
  unfold Matcher.onDoc
  simp only [Matched.andThen]
  cases c.placement with
  | inner => rw [emit_lastEnd, heed_lastEnd]
  | outer =>
      simp only [Matcher.onOuter]
      split
      · rw [emit_lastEnd, heed_lastEnd]
      · simp only [Matched.andThen, Matcher.openWindow]
        rw [resolve_lastEnd, heed_lastEnd]

theorem countToken_lastEnd (r : Reading) (m : Matcher) :
    (m.countToken r).matcher.lastEnd = m.lastEnd := by
  unfold Matcher.countToken
  split
  · rfl
  · simp only
    split <;> rfl

/-- An item moves the matcher on to its end. -/
theorem step_lastEnd (r : Reading) (m : Matcher) (item : Item) :
    (m.step r item).matcher.lastEnd = max m.lastEnd item.stop := by
  cases item with
  | comment c =>
      simp only [Matcher.step, Matcher.onComment, Matched.andThen]
      split
      · rw [onDoc_lastEnd, detach_lastEnd]
      · rw [detach_lastEnd]
  | token t =>
      simp only [Matcher.step, Matcher.onToken]
      split
      · rfl
      · simp only [Matched.andThen, Matcher.feed]
        rw [countToken_lastEnd, heed_lastEnd]
        simp only [Matcher.noteFirst, detach_lastEnd]

/-- The furthest place that items reach, or that was reached before them. -/
def reachFrom (reach : Nat) (items : List Item) : Nat :=
  items.foldl (fun reach item => max reach item.stop) reach

/-- Items that all end by a bound reach no further. -/
theorem reachFrom_le {reach bound : Nat} {items : List Item}
    (hreach : reach ≤ bound) (hitems : ∀ item ∈ items, item.stop ≤ bound) :
    reachFrom reach items ≤ bound := by
  induction items generalizing reach with
  | nil => exact hreach
  | cons item items ih =>
      refine ih (Nat.max_le.2 ⟨hreach, hitems item List.mem_cons_self⟩)
        fun i hi => ?_
      exact hitems i (List.mem_cons_of_mem item hi)

/-- A stretch moves the matcher on as far as its items reach. -/
theorem consume_reach (r : Reading) (items : List Item) :
    ∀ m : Matcher, (m.consume r items).matcher.lastEnd
      = reachFrom m.lastEnd items := by
  induction items with
  | nil =>
      intro m
      rfl
  | cons item items ih =>
      intro m
      show ((m.step r item).matcher.consume r items).matcher.lastEnd = _
      rw [ih, step_lastEnd]
      rfl

/-- The furthest offset read is no further than the items reach. -/
theorem consume_lastEnd {reach : Nat} (items : List Item) (m : Matcher)
    (hm : m.lastEnd ≤ reach) (hitems : ∀ item ∈ items, item.stop ≤ reach) :
    (m.consume r items).matcher.lastEnd ≤ reach := by
  rw [consume_reach]
  exact reachFrom_le hm hitems

-- ============================================================== runs

/-- A matcher and one that follows it further on. -/
structure Matcher.Follows (r : Reading) (k l : Nat) (m m' : Matcher) :
    Prop where
  moved : m.Moved k l r.text.length m'
  reached : Reached k r.text.length m.lastEnd m'.lastEnd
  anchored : m.window ≠ none → k ≤ m'.lastEnd

/-- One item: the second matcher follows the first. -/
theorem step_moved (hr : r.Moved k l r') (h : m.Follows r k l m')
    {item item' : Item} (hitem : Item.Moved r k l item item') :
    (m.step r item).matcher.Follows r k l (m'.step r' item').matcher
      ∧ (m'.step r' item').records
        = (m.step r item).records.map (·.moved k l) := by
  have hempty : ∀ {offset : Nat}, offset < r.text.length → m.window ≠ none →
      Text.hasEmptyLine r'.text m'.lastEnd (offset + k)
        = Text.hasEmptyLine r.text m.lastEnd offset :=
    fun hoffset hw => h.reached.hasEmptyLine hr (h.anchored hw) hoffset
  have hreached : Reached k r.text.length (m.step r item).matcher.lastEnd
      (m'.step r' item').matcher.lastEnd := by
    rw [step_lastEnd, step_lastEnd]
    exact h.reached.item hitem
  have hanchored : k ≤ (m'.step r' item').matcher.lastEnd := by
    rw [step_lastEnd]
    cases hitem with
    | same item _ _ =>
        cases item with
        | comment c => simp only [Item.moved, Item.stop, Comment.moved]; omega
        | token t => simp only [Item.moved, Item.stop, Token.moved_stop]; omega
    | directive token token' _ _ _ hstart _ _ hstop' =>
        simp only [Item.stop]; omega
  have hmoved : (m.step r item).Moved k l r.text.length (m'.step r' item') := by
    cases hitem with
    | same item hstart hstop =>
        cases item with
        | comment c =>
            exact (h.moved.onComment hr (Nat.le_of_lt hstart)
              (hempty hstart)).reach _ _
        | token t =>
            refine (h.moved.onToken hr (t.moved_start k) (hempty hstart)
              fun ht => ?_).reach _ _
            rw [hr.rules]
            exact ht.feed r.rules hr.lines (Nat.le_of_lt hstart) hstop
    | directive token token' hkind hkind' hbreaks hstart hstart' _ _ =>
        refine (h.moved.onToken hr hstart' (hempty hstart) fun ht => ?_).reach _
          _
        rw [hr.rules]
        exact ht.feed_directive r.rules hbreaks hkind hkind'
          (Nat.le_of_lt hstart)
  exact ⟨⟨hmoved.matcher, hreached, fun _ => hanchored⟩, hmoved.records⟩

/-- A stretch of the stream, further on. -/
theorem consume_moved (hr : r.Moved k l r') {items items' : List Item}
    (hitems : List.Forall₂ (Item.Moved r k l) items items') :
    ∀ m m' : Matcher, m.Follows r k l m' →
      (m.consume r items).matcher.Follows r k l (m'.consume r' items').matcher
        ∧ (m'.consume r' items').records
          = (m.consume r items).records.map (·.moved k l) := by
  induction hitems with
  | nil =>
      intro m m' h
      exact ⟨h, rfl⟩
  | cons hitem _ ih =>
      intro m m' h
      obtain ⟨hstep, hrecords⟩ := step_moved hr h hitem
      obtain ⟨hrest, hrest'⟩ := ih _ _ hstep
      refine ⟨hrest, ?_⟩
      simp only [Matcher.consume, Matched.andThen, List.map_append,
        hrecords, hrest']

/-- The end of the text, further on. -/
theorem finish_moved (hr : r.Moved k l r') (h : m.Moved k l r.text.length m') :
    (m'.finish r').records = (m.finish r).records.map (·.moved k l) := by
  obtain ⟨hflushed, hevents⟩ := h.tracker.flush r.rules hr.lines
  unfold Matcher.finish
  rw [hr.rules]
  have hheed :=
    (h.withTracker hflushed).heed (m.tracker.flush r.rules r.scopeLines).2
  rw [← hevents] at hheed
  have hresolved := hheed.matcher.resolve none
  rw [Option.map_none] at hresolved
  simp only [Matched.andThen, List.map_append, hheed.records, hresolved.records,
    hresolved.matcher.held]

/-- A whole stream, further on. -/
theorem run_moved (hr : r.Moved k l r') {items items' : List Item}
    (hitems : List.Forall₂ (Item.Moved r k l) items items')
    (h : m.Follows r k l m') :
    (m'.run r' items').records = (m.run r items).records.map (·.moved k l) := by
  obtain ⟨hfollows, hrecords⟩ := consume_moved hr hitems m m' h
  rw [run_finish, run_finish, List.map_append, hrecords,
    finish_moved hr hfollows.moved]

end

end Marginalia
