/-
Empty lines between a comment and its code.

A comment that waits is given up at an empty line, up to the first token that
is read behind it. Each comment and each token that is read looks back for one,
from its start to the furthest place reached by what stands in front
(`reachOf`), which is the end of the item in front unless a directive reaches
over it. So where a comment is bound, all of these see no empty line
(`bound_comment_touches_code`).

A token that is passed over does not look back, but is reached past by what
follows. So an empty line in front of an ignored line parts nothing, though one
behind it would (`ignored_line_hides_empty_line`).
-/
import Marginalia.Proofs.Association.BackToBack
import Marginalia.Proofs.Association.Moved

namespace Marginalia

-- ============================================================= reach

/-- The furthest place that the items from the start of the stream reach. -/
def reachOf (items : List Item) : Nat := reachFrom 0 items

theorem reachFrom_append (reach : Nat) (items more : List Item) :
    reachFrom reach (items ++ more) = reachFrom (reachFrom reach items) more :=
  List.foldl_append

/-- The item in front of a place reaches furthest, unless a directive in front
of it reaches further. -/
theorem reachOf_last {rules : Rules} (hplain : rules.isPlain = true)
    {text : List Char} {front back : List Item} {last : Item}
    (h : rules.items text = front ++ last :: back)
    (hdirectives : ∀ t, .token t ∈ front → t.kind = .directive →
      t.stop ≤ last.stop) :
    reachOf (front ++ [last]) = last.stop := by
  have hlast : last.start ≤ last.stop := by
    cases last with
    | token t => exact Nat.le_add_right _ _
    | comment d =>
        have hd : d ∈ rules.commentsOf text :=
          mem_mergeItems_comment.1
            (h ▸ List.mem_append_right _ List.mem_cons_self)
        exact Nat.le_of_lt ((commentsOf_ordered rules text).1 d hd).1
  have hpairs := items_apart hplain text
  rw [h, List.pairwise_append] at hpairs
  have hfront : reachFrom 0 front ≤ last.stop := by
    refine reachFrom_le (Nat.zero_le _) fun item hitem => ?_
    rcases hpairs.2.2 item hitem last List.mem_cons_self with hle | ⟨t, rfl,
      hdirective⟩
    · omega
    · exact hdirectives t hitem hdirective
  rw [reachOf, reachFrom_append]
  exact Nat.max_eq_right hfront

-- ========================================================== one step

section

variable {reading : Reading} {m : Matcher} {c : Comment}

/-- A token that is read behind the comment that waits. -/
theorem step_read (h : m.WaitsUnread c) {t : Token}
    (hread : Matcher.ignores reading t = false) :
    (m.step reading (.token t)).Orphans c
      ∨ Text.hasEmptyLine reading.text m.lastEnd t.start = false := by
  rcases detach_unread h t.start with horphans | ⟨hgap, -⟩
  · refine .inl ?_
    show (m.onToken reading t).Orphans c
    rw [Matcher.onToken, hread, if_neg Bool.false_ne_true]
    exact horphans.andThen fun record hheld => feed_keeps t hheld
  · exact .inr hgap

/-- The end of the text orphans a comment behind which nothing was read. -/
theorem finish_orphans (h : m.WaitsUnread c) :
    ∃ depth, ⟨c, none, depth⟩ ∈ (m.finish reading).records := by
  have hbroken : ∀ tracker, ({ m with tracker } : Matcher).WaitsUnread c :=
    fun _ => h
  have hflushed : (m.tracker.flush reading.rules reading.scopeLines).2 = []
      ∨ ∃ depth site, (m.tracker.flush reading.rules reading.scopeLines).2
        = [.statement depth site] := by
    rcases Tracker.flush_cases reading.rules reading.scopeLines m.tracker
      with hf | hf
    · exact .inl (by rw [hf])
    · exact .inr ⟨_, _, by rw [hf]⟩
  unfold Matcher.finish
  simp only [heed_ended (hbroken _) hflushed]
  obtain ⟨depth, hkeeps⟩ :=
    resolve_orphans (hbroken (m.tracker.flush reading.rules
    reading.scopeLines).1)
  refine ⟨depth, ?_⟩
  simpa only [Matched.andThen, List.nil_append, Matched.Keeps] using hkeeps

/-- An orphan stays one, whatever is read after it. -/
theorem Matched.Orphans.run {x : Matched} (h : x.Orphans c)
    (items : List Item) :
    ∃ depth, ⟨c, none, depth⟩ ∈ (x.andThen (·.run reading items)).records := by
  obtain ⟨depth, hkeeps⟩ := h
  refine ⟨depth, ?_⟩
  rcases List.mem_append.1 hkeeps with hput | hheld
  · exact List.mem_append_left _ hput
  · exact List.mem_append_right _ (run_held items _ hheld)

-- ======================================================== whole runs

/-- A stream up to the first token that is read: whatever looks back on the way
sees no empty line, `reach` being how far was read in front of the stream. -/
structure Touches (reading : Reading) (reach : Nat) (items between : List Item)
    (token : Token) (after : List Item) : Prop where
  split : items = between ++ .token token :: after
  unread : ∀ item ∈ between, item.isRead reading = false
  read : (Item.token token).isRead reading = true
  gaps : ∀ (front : List Item) (item : Item) (back : List Item),
    between ++ [Item.token token] = front ++ item :: back →
      item.isPassed reading = false →
    Text.hasEmptyLine reading.text (reachFrom reach front) item.start = false

/-- A token without an empty line in front touches. -/
theorem Touches.token {reach : Nat} {t : Token}
    (hread : Matcher.ignores reading t = false)
    (hgap : Text.hasEmptyLine reading.text reach t.start = false)
    (items : List Item) :
    Touches reading reach (.token t :: items) [] t items where
  split := rfl
  unread item hitem := absurd hitem List.not_mem_nil
  read := by simp [Item.isRead, hread]
  gaps front item back hsplit _ := by
    rcases List.cons_eq_append_iff.1 hsplit with ⟨rfl, hcons⟩ | ⟨front,
      -, hrest⟩
    · obtain ⟨rfl, -⟩ := List.cons.inj hcons
      exact hgap
    · simp at hrest

/-- So does one behind an item that no empty line parts from what was read. -/
theorem Touches.cons {reach : Nat} {item : Item}
    {items between after : List Item} {token : Token}
    (h : Touches reading (max reach item.stop) items between token after)
    (hunread : item.isRead reading = false)
    (hgap : item.isPassed reading = false →
      Text.hasEmptyLine reading.text reach item.start = false) :
    Touches reading reach (item :: items) (item :: between) token after where
  split := congrArg (item :: ·) h.split
  unread := List.forall_mem_cons.2 ⟨hunread, h.unread⟩
  read := h.read
  gaps front other back hsplit hlooks := by
    rcases List.cons_eq_append_iff.1 hsplit with ⟨rfl, hcons⟩ | ⟨front,
      rfl, hrest⟩
    · obtain ⟨rfl, -⟩ := List.cons.inj hcons
      exact hgap hlooks
    · exact h.gaps front other back hrest hlooks

/-- A comment that waits is orphaned, or touches a token that is read. -/
theorem run_touches (items : List Item) :
    ∀ {m : Matcher}, m.WaitsUnread c →
      (∃ depth, ⟨c, none, depth⟩ ∈ (m.run reading items).records)
        ∨ ∃ between token after,
          Touches reading m.lastEnd items between token after := by
  induction items with
  | nil =>
      intro m h
      exact .inl (finish_orphans h)
  | cons item items ih =>
      intro m h
      cases hread : item.isRead reading with
      | false =>
          rcases step_unread hread h with horphans | ⟨hwaits, hgap⟩
          · exact .inl (horphans.run items)
          · rcases ih hwaits with ⟨depth, hmem⟩ | ⟨between, token, after,
              htouches⟩
            · exact .inl ⟨depth, List.mem_append_right _ hmem⟩
            · rw [step_lastEnd] at htouches
              exact .inr ⟨_, _, _, htouches.cons hread hgap⟩
      | true =>
          cases item with
          | comment d => cases hread
          | token t =>
              have hignored : Matcher.ignores reading t = false := by
                simpa [Item.isRead] using hread
              rcases step_read h hignored with horphans | hgap
              · exact .inl (horphans.run items)
              · exact .inr ⟨_, _, _, .token hignored hgap items⟩

/-- An outer doc comment that is not orphaned touches a token that is read. -/
theorem run_bound_touches {before rest : List Item} (hdoc : c.isDoc = true)
    (houter : c.placement = .outer)
    (hnever : ¬∃ depth, ⟨c, none, depth⟩
      ∈ (Matcher.run reading {} (before ++ Item.comment c :: rest)).records) :
    ∃ between token after,
      Touches reading (reachOf (before ++ [Item.comment c])) rest between token
        after := by
  rw [run_append] at hnever
  have hreach : ((Matcher.consume reading {} before).matcher.step reading
      (.comment c)).matcher.lastEnd = reachOf (before ++ [Item.comment c]) := by
    rw [step_lastEnd, consume_reach, reachOf, reachFrom_append]
    rfl
  have hlater : ¬∃ depth,
      ⟨c, none, depth⟩ ∈ ((Matcher.consume reading {} before).matcher.run
      reading (.comment c :: rest)).records :=
    fun ⟨depth, hmem⟩ => hnever ⟨depth, List.mem_append_right _ hmem⟩
  generalize (Matcher.consume reading {} before).matcher = m at hlater hreach
  rcases step_waits hdoc houter m with horphans | hwaits
  · exact (hlater (horphans.run rest)).elim
  · rcases run_touches rest hwaits with ⟨depth, hmem⟩ | htouches
    · exact (hlater ⟨depth, List.mem_append_right _ hmem⟩).elim
    · exact hreach ▸ htouches

/-- The gap between an item and the next one, from the comment on. -/
theorem Touches.gap_behind {before items between after : List Item}
    {token : Token}
    (h : Touches reading (reachOf (before ++ [Item.comment c])) items between
      token after) {front back : List Item} {last item : Item}
    (hsplit : Item.comment c :: (between ++ [Item.token token])
      = front ++ last :: item :: back)
    (hlooks : item.isPassed reading = false) :
    Text.hasEmptyLine reading.text (reachOf (before ++ front ++ [last]))
      item.start = false := by
  rcases List.cons_eq_append_iff.1 hsplit with ⟨rfl, hcons⟩ | ⟨front,
    rfl, hrest⟩
  · obtain ⟨rfl, hrest⟩ := List.cons.inj hcons
    rw [List.append_nil]
    exact h.gaps [] item back hrest.symm hlooks
  · have hgap := h.gaps (front ++ [last]) item back (by simp [hrest]) hlooks
    rw [reachOf, ← reachFrom_append] at hgap
    simpa [reachOf] using hgap

end

-- ============================================================= scans

/-- Between an outer doc comment that is bound and the first token behind it
that is read, no empty line stands in front of a comment or of that token,
counted from the furthest place reached; that place is the end of the item in
front, unless a directive reaches further. -/
theorem bound_comment_touches_code (dialect : Dialect) (settings : ScanSettings)
    (options : ScanOptions) (hcheck : settings.check = .ok options)
    (text : List Char) :
    ∃ rules result, dialect.rules.withOptions options = .ok rules
      ∧ dialect.rules.scan options text = .ok result
      ∧ ∀ record ∈ result.records,
        record.comment.placement = .outer → record.target ≠ none →
        ∃ (before between : List Item) (token : Token) (after : List Item),
          rules.items text
              = before ++ .comment record.comment
                :: (between ++ .token token :: after)
            ∧ (∀ item ∈ between,
              item.isRead (rules.reading options text) = false)
            ∧ (Item.token token).isRead (rules.reading options text) = true
            ∧ ∀ (front : List Item) (last item : Item) (back : List Item),
              Item.comment record.comment :: (between ++ [Item.token token])
                  = front ++ last :: item :: back →
              item.isPassed (rules.reading options text) = false →
              Text.hasEmptyLine text (reachOf (before ++ front ++ [last]))
                item.start = false
                ∧ ((∀ t : Token, Item.token t ∈ before ++ front →
                  t.kind = .directive →
                    t.stop ≤ last.stop) →
                  reachOf (before ++ front ++ [last]) = last.stop) := by
  obtain ⟨rules, result, hrules, hscan, hrecords⟩ := dialect.scan_ok hcheck text
  refine ⟨rules, result, hrules, hscan, ?_⟩
  rw [hrecords]
  intro record hmem houter hbound
  obtain ⟨hdoc, honce⟩ := run_records_once rules options text record hmem
  obtain ⟨before, e, hsplit, -, -, hcomment⟩ :=
    run_at_comment (commentLaw (rules.reading options text)) _ hmem
  rw [← hcomment] at hsplit
  have hnever : ¬∃ depth, ⟨record.comment, none, depth⟩ ∈ (Matcher.run
      (rules.reading options text) {} (rules.items text)).records := by
    rintro ⟨depth, horphan⟩
    exact hbound (by rw [honce _ horphan rfl])
  rw [hsplit] at hnever
  obtain ⟨between, token, after, htouches⟩ :=
    run_bound_touches hdoc houter hnever
  rw [htouches.split] at hsplit
  refine ⟨before, between, token, after, hsplit, htouches.unread,
    htouches.read, ?_⟩
  intro front last item back hgap hlooks
  have hstream : rules.items text
      = (before ++ front) ++ last :: (item :: back ++ after) := by
    have hgathered : Item.comment record.comment
        :: (between ++ .token token :: after)
        = (.comment record.comment :: (between ++ [.token token]))
          ++ after := by simp
    rw [hsplit, hgathered, hgap]
    simp
  exact ⟨htouches.gap_behind hgap hlooks,
    reachOf_last (dialect.plain hrules) hstream⟩

/-- A comment, a line that is passed over, and a class. -/
def overPassedLine : List Char := "///a\nx\nclass B\x7b\x7d".toList

/-- Options that pass over the lines with an `x`. -/
def passingX : ScanOptions :=
  { ignorePatterns := [.char (.range 120 120) .exact] }

theorem check_passingX :
    ({ ignoreLinePatterns := .list [.str "x"] } : ScanSettings).check
      = .ok passingX := by
  with_unfolding_all rfl

/-- A comment over a line that is passed over. -/
theorem comment_over_ignored_line_touches_code :
    ({ ignoreLinePatterns := .list [.str "x"] } : ScanSettings).check
      = .ok passingX
      ∧ ∃ (result : ScanResult) (record : Record) (before between : List Item)
          (token : Token) (after : List Item),
        Dialect.java.rules.scan passingX overPassedLine = .ok result
          ∧ record ∈ result.records ∧ record.comment.placement = .outer
          ∧ record.target ≠ none
          ∧ Dialect.java.rules.items overPassedLine
            = before ++ .comment record.comment
              :: (between ++ .token token :: after)
          ∧ ∀ (front : List Item) (last item : Item) (back : List Item),
            Item.comment record.comment :: (between ++ [Item.token token])
                = front ++ last :: item :: back →
            item.isPassed (Dialect.java.rules.reading passingX overPassedLine)
              = false →
            Text.hasEmptyLine overPassedLine
              (reachOf (before ++ front ++ [last])) item.start = false := by
  obtain ⟨rules, result, hrules, hscan, htouches⟩ :=
    bound_comment_touches_code .java _ _ check_passingX overPassedLine
  have happlied : Dialect.java.rules = rules := Except.ok.inj hrules
  rw [← happlied] at hrules htouches
  have htargets : result.records.map (fun record =>
      (record.comment.placement, record.target.isSome)) = [(.outer, true)] := by
    rw [scan_records hrules hscan, Dialect.items_eq]
    decide +kernel
  obtain ⟨record, hmem, hrecord⟩ :=
    List.mem_map.1 (htargets.symm ▸ List.mem_singleton_self _)
  obtain ⟨hplace, htarget⟩ := Prod.mk.inj hrecord
  have hbound : record.target ≠ none := Option.isSome_iff_ne_none.1 htarget
  obtain ⟨before, between, token, after, hitems, -, -, hgaps⟩ :=
    htouches record hmem hplace hbound
  exact ⟨check_passingX, result, record, before, between, token, after,
    hscan, hmem, hplace, hbound, hitems,
    fun front last item back hsplit hlooks =>
      (hgaps front last item back hsplit hlooks).1⟩

/-- The same with an empty line below the comment. -/
def apartFromPassedLine : List Char := "///a\n\nx\nclass B\x7b\x7d".toList

/-- An empty line in front of a line that is passed over parts no comment from
the code below. -/
theorem ignored_line_hides_empty_line :
    ({ ignoreLinePatterns := .list [.str "x"] } : ScanSettings).check
      = .ok passingX
      ∧ (Dialect.java.rules.scan passingX apartFromPassedLine).toOption.map
          (fun result => result.records.map fun record =>
            (record.comment.placement, record.comment.stop,
              record.target.map (·.name)))
        = some [(.outer, 4, some "B")]
      ∧ ((Dialect.java.rules.items apartFromPassedLine).map fun item =>
          (item.start,
            item.isPassed
              (Dialect.java.rules.reading passingX apartFromPassedLine)))
        = [(0, false), (6, true), (8, false), (14, false), (15, false),
          (16, false)]
      ∧ Text.hasEmptyLine apartFromPassedLine 4 6 = true := by
  have hscan : Dialect.java.rules.scan passingX apartFromPassedLine
      = .ok (Dialect.java.rules.index passingX apartFromPassedLine).result :=
        rfl
  refine ⟨check_passingX, ?_, ?_, ?_⟩
  · simp only [hscan, Except.toOption, Option.map_some, index_records,
      Dialect.items_eq]
    decide +kernel
  · rw [Dialect.items_eq]
    decide +kernel
  · decide

end Marginalia
