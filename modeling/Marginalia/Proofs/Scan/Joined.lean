/-
Scanning two texts with an empty line between them.

The stream of the whole is the stream of the first text and then that of the
second, further on (`items_joined`). If the first text leaves no comment
waiting and no statement or scope open, the matcher goes on from there as
it would from the start, so the records are those of the first text and
then those of the second, further on.
-/
import Marginalia.Proofs.Association.Account
import Marginalia.Proofs.Comment.Joined
import Marginalia.Proofs.Token.Joined

namespace Marginalia

-- =========================================================== merging

/-- Streams that lie one behind the other are merged one behind the other. -/
theorem merge_append (limit : Nat) {xs' ys' : List Item} (xs : List Item) :
    ∀ ys : List Item, (∀ x ∈ xs, x.start < limit) →
    (∀ y ∈ ys, y.start < limit) →
      (∀ x ∈ xs', limit ≤ x.start) → (∀ y ∈ ys', limit ≤ y.start) →
      List.merge (xs ++ xs') (ys ++ ys') (fun a b => a.start ≤ b.start)
        = List.merge xs ys (fun a b => a.start ≤ b.start)
          ++ List.merge xs' ys' (fun a b => a.start ≤ b.start) := by
  induction xs with
  | nil =>
      intro ys hxs hys hxs' hys'
      induction ys with
      | nil => simp
      | cons y ys ih =>
          have hy := hys y List.mem_cons_self
          have hrest := ih fun z hz => hys z (List.mem_cons_of_mem y hz)
          rw [List.nil_append, List.nil_merge] at hrest ⊢
          rw [List.cons_append, List.cons_append, ← hrest]
          cases xs' with
          | nil => rw [List.nil_merge, List.nil_merge]
          | cons x xs' =>
              have hx := hxs' x List.mem_cons_self
              rw [List.cons_merge_cons, if_neg (by simp; omega)]
  | cons x xs ih =>
      intro ys hxs hys hxs' hys'
      have hx := hxs x List.mem_cons_self
      have htail : ∀ z ∈ xs, z.start < limit :=
        fun z hz => hxs z (List.mem_cons_of_mem x hz)
      induction ys with
      | nil =>
          have hrest := ih [] htail (fun z hz => absurd hz (by simp)) hxs' hys'
          rw [List.nil_append, List.merge_right] at hrest ⊢
          rw [List.cons_append, List.cons_append, ← hrest]
          cases ys' with
          | nil => rw [List.merge_right, List.merge_right]
          | cons y ys' =>
              have hy := hys' y List.mem_cons_self
              rw [List.cons_merge_cons, if_pos (by simp; omega)]
      | cons y ys ihy =>
          have hrest := ih (y :: ys) htail hys hxs' hys'
          have hresty := ihy fun z hz => hys z (List.mem_cons_of_mem y hz)
          rw [List.cons_append] at hrest hresty
          rw [List.cons_append, List.cons_append, List.cons_merge_cons,
            List.cons_merge_cons]
          split
          · rw [hrest, List.cons_append]
          · rw [hresty, List.cons_append]

/-- So comments and tokens of two texts are merged text by text. -/
theorem mergeItems_append (limit : Nat) {comments comments' : List Comment}
    {tokens tokens' : List Token} (hcomments : ∀ c ∈ comments, c.start < limit)
    (htokens : ∀ t ∈ tokens, t.start < limit)
    (hcomments' : ∀ c ∈ comments', limit ≤ c.start)
    (htokens' : ∀ t ∈ tokens', limit ≤ t.start) :
    mergeItems (comments ++ comments') (tokens ++ tokens')
      = mergeItems comments tokens ++ mergeItems comments' tokens' := by
  unfold mergeItems
  rw [List.map_append, List.map_append]
  exact merge_append limit _ _ (List.forall_mem_map.2 hcomments)
    (List.forall_mem_map.2 htokens)
    (List.forall_mem_map.2 hcomments') (List.forall_mem_map.2 htokens')

section

variable {r : Reading} {k l : Nat}

/-- A moved item starts as much further on. -/
theorem Item.Moved.starts {item item' : Item}
    (h : Item.Moved r k l item item') :
    item'.start = item.start + k := by
  cases h with
  | same item _ _ => cases item <;> rfl
  | directive token token' _ _ _ _ start' _ _ => exact start'

/-- Streams of moved items are merged as those of the items. -/
theorem merge_moved {xs xs' : List Item}
    (hxs : List.Forall₂ (Item.Moved r k l) xs xs') :
    ∀ {ys ys' : List Item}, List.Forall₂ (Item.Moved r k l) ys ys' →
      List.Forall₂ (Item.Moved r k l)
        (List.merge xs ys fun a b => a.start ≤ b.start)
        (List.merge xs' ys' fun a b => a.start ≤ b.start) := by
  induction hxs with
  | nil =>
      intro ys ys' hys
      rw [List.nil_merge, List.nil_merge]
      exact hys
  | @cons x x' xs xs' hx htail ih =>
      intro ys ys' hys
      induction hys with
      | nil =>
          rw [List.merge_right, List.merge_right]
          exact .cons hx htail
      | @cons y y' ys ys' hy hrest ihy =>
          have hle : decide (x'.start ≤ y'.start)
              = decide (x.start ≤ y.start) := by
            rw [hx.starts, hy.starts]
            exact decide_eq_decide.2 (by omega)
          rw [List.cons_merge_cons, List.cons_merge_cons, hle]
          split
          · exact .cons hx (ih (.cons hy hrest))
          · exact .cons hy ihy

end

-- ======================================================== the stream

/-- A token of the first text that stays is the same item to the matcher. -/
theorem Token.Stays.moved {rules : Rules} (hplain : rules.isPlain = true)
    (options : ScanOptions) (text : List Char) {token token' : Token}
    (h : Token.Stays rules text.length token token') :
    Item.Moved (rules.reading options text) 0 0 (.token token)
      (.token token') := by
  cases h with
  | same start stop => exact .same (.token token) start stop
  | directive _ kind kind' preprocessor start start' stop stop' _ =>
      have hbreaks : rules.newlineTerminates = false := by
        simp only [Rules.isPlain, Bool.and_eq_true, Bool.not_eq_true',
          Bool.and_eq_false_iff] at hplain
        rcases hplain.2 with hnone | hbreaks
        · rw [preprocessor] at hnone
          cases hnone
        · exact hbreaks
      exact .directive token token' kind kind' hbreaks start start' stop stop'

/-- The comments of a text are items that lie in it. -/
theorem comments_moved (rules : Rules) (options : ScanOptions)
    (text : List Char) (k l : Nat) :
    List.Forall₂ (Item.Moved (rules.reading options text) k l)
      ((rules.commentsOf text).map .comment)
      (((rules.commentsOf text).map (·.moved k l)).map .comment) := by
  rw [List.map_map, List.forall₂_map_left_iff, List.forall₂_map_right_iff]
  refine List.forall₂_same.2 fun c hc => ?_
  obtain ⟨hlt, hstop⟩ := (commentsOf_ordered rules text).1 c hc
  exact .same (.comment c) (Nat.lt_of_lt_of_le hlt hstop) hstop

/-- The tokens of a text are items that lie in it. -/
theorem tokens_moved {rules : Rules} (hplain : rules.isPlain = true)
    (options : ScanOptions) (text : List Char) (k l : Nat) :
    List.Forall₂ (Item.Moved (rules.reading options text) k l)
      ((rules.tokens text (rules.spans text)).map .token)
      (((rules.tokens text (rules.spans text)).map (·.moved k)).map
        .token) := by
  rw [List.map_map, List.forall₂_map_left_iff, List.forall₂_map_right_iff]
  refine List.forall₂_same.2 fun t ht => ?_
  obtain ⟨hstart, hstop⟩ := tokens_bounds hplain text t ht
  exact .same (.token t) hstart hstop

/-- The stream of two texts with an empty line between them: that of the
first, and that of the second further on. -/
theorem items_joined {rules : Rules} (hplain : rules.isPlain = true)
    (options : ScanOptions) {a : List Char}
    (hclosed : ∀ span ∈ rules.spans a, span.unclosed = none) (b : List Char) :
    ∃ front back, rules.items (a ++ '\n' :: '\n' :: b) = front ++ back
      ∧ (∀ item ∈ front, item.stop ≤ a.length + 1)
      ∧ List.Forall₂ (Item.Moved (rules.reading options a) 0 0)
        (rules.items a) front
      ∧ List.Forall₂ (Item.Moved (rules.reading options b) (a.length + 2)
        (a.count '\n' + 2)) (rules.items b) back := by
  obtain ⟨tokens, htokens, hstays⟩ := tokens_joined hplain hclosed b
  have hcomments : ∀ c ∈ rules.commentsOf a,
      c.start < a.length ∧ c.stop ≤ a.length := by
    intro c hc
    obtain ⟨hlt, hstop⟩ := (commentsOf_ordered rules a).1 c hc
    exact ⟨Nat.lt_of_lt_of_le hlt hstop, hstop⟩
  have hnear : ∀ t ∈ tokens, t.start < a.length ∧ t.stop ≤ a.length + 1 := by
    intro t ht
    obtain ⟨t₀, ht₀, hstay⟩ := forall₂_exists_left hstays t ht
    have hstart : t.start = t₀.start := (hstay.moved hplain options a).starts
    exact ⟨by rw [hstart]; exact (tokens_bounds hplain a t₀ ht₀).1, hstay.near⟩
  refine ⟨mergeItems (rules.commentsOf a) tokens,
    mergeItems
      ((rules.commentsOf b).map (·.moved (a.length + 2) (a.count '\n' + 2)))
      ((rules.tokens b (rules.spans b)).map (·.moved (a.length + 2))),
    ?_, ?_, ?_, ?_⟩
  · have hall := comments_joined hplain hclosed b
    rw [Rules.commentsOf] at hall
    rw [Rules.items, hall, htokens]
    refine mergeItems_append a.length (fun c hc => (hcomments c hc).1)
      (fun t ht => (hnear t ht).1) (List.forall_mem_map.2 fun c _ => ?_)
      (List.forall_mem_map.2 fun t _ => ?_)
    · simp only [Comment.moved]
      omega
    · rw [Token.moved_start]
      omega
  · intro item hitem
    cases item with
    | comment c =>
        exact Nat.le_succ_of_le (hcomments c (mem_mergeItems_comment.1 hitem)).2
    | token t => exact (hnear t (mem_mergeItems_token.1 hitem)).2
  · refine merge_moved ?_ ?_
    · have hmoved := comments_moved rules options a 0 0
      rwa [show (rules.commentsOf a).map (·.moved 0 0)
        = rules.commentsOf a from List.map_id _] at hmoved
    · rw [List.forall₂_map_left_iff, List.forall₂_map_right_iff]
      exact hstays.imp fun _ _ h => h.moved hplain options a
  · exact merge_moved (comments_moved rules options b _ _)
      (tokens_moved hplain options b _ _)

-- ====================================================== the readings

section

variable (rules : Rules) {options : ScanOptions}

theorem ignoredLines_none (h : options.ignorePatterns = []) (text : List Char) :
    (rules.reading options text).ignored = [] := by
  simp only [Rules.reading, Rules.index, h, ignoredLines]
  rfl

/-- The first text is read where it was. -/
theorem reading_front (h : options.ignorePatterns = [])
    (front back : List Char) :
    (rules.reading options front).Moved 0 0
      (rules.reading options (front ++ back)) where
  rules := rfl
  window := rfl
  ignored := ignoredLines_none rules h _
  ignored' := ignoredLines_none rules h _
  lines := Text.linesMoved_front front back
  slice _ _ hstop := Text.slice_front front back hstop

/-- The second text is read further on. -/
theorem reading_back (h : options.ignorePatterns = [])
    (front back : List Char) :
    (rules.reading options back).Moved (front.length + 2) (front.count '\n' + 2)
      (rules.reading options (front ++ '\n' :: '\n' :: back)) where
  rules := rfl
  window := rfl
  ignored := ignoredLines_none rules h _
  ignored' := ignoredLines_none rules h _
  lines := Text.linesMoved_back front back _
  slice start stop _ := Text.slice_back front back start stop

end

-- ======================================================= the matcher

/-- The matcher is between statements: no comment waits, and no statement or
scope is open. -/
structure Matcher.AtRest (m : Matcher) : Prop where
  window : m.window = none
  depth : m.tracker.depth = 1
  header : m.tracker.header = []
  parens : m.tracker.parens = 0

theorem Matcher.AtRest.levels {m : Matcher} (h : m.AtRest) :
    m.tracker.levels = [] := by
  have hdepth := h.depth
  rw [Tracker.depth] at hdepth
  exact List.eq_nil_of_length_eq_zero (by omega)

/-- A matcher that reads the same further on comes to rest there. -/
theorem Matcher.AtRest.moved {k l limit : Nat} {m m' : Matcher} (h : m.AtRest)
    (hmoved : m.Moved k l limit m') : m'.AtRest where
  window := by rw [hmoved.window, h.window, Option.map_none]
  depth := hmoved.tracker.depth.trans h.depth
  header := by rw [hmoved.tracker.header, h.header, List.map_nil]
  parens := hmoved.tracker.parens.trans h.parens

/-- At rest nothing is held, and the end of the text brings nothing. -/
theorem Matcher.AtRest.idle {reading : Reading} {items : List Item}
    (h : (Matcher.consume reading {} items).matcher.AtRest) :
    (Matcher.consume reading {} items).matcher.held = []
      ∧ ((Matcher.consume reading {} items).matcher.finish reading).records
        = [] := by
  obtain ⟨left, howes⟩ :=
    consume_owes (commentLaw reading) items [] [] {} ⟨rfl, rfl⟩
  obtain ⟨rfl, hheld⟩ := (Owes.none_iff h.window).1 howes
  exact ⟨hheld,
    List.forall₂_nil_left_iff.1 (finish_pays (commentLaw reading) howes)⟩

/-- A matcher at rest in front of a text follows a fresh one, however it came
there. -/
theorem Matcher.AtRest.follows {m : Matcher} (h : m.AtRest)
    (hheld : m.held = []) {k : Nat} (hreach : m.lastEnd ≤ k) (reading : Reading)
    (l : Nat) :
    Matcher.Follows reading k l {} m where
  moved := {
    tracker := {
      levels := h.levels
      header := h.header
      parens := h.parens
      previous := fun hne => absurd rfl hne
      holds :=
        ⟨fun t ht => absurd ht (by simp), [], rfl,
          fun _ hlevel => absurd hlevel (by simp)⟩ }
    window := h.window
    held := hheld }
  reached := Or.inl (by rw [Nat.max_eq_left hreach, Nat.zero_add])
  anchored hne := absurd rfl hne

theorem Record.moved_zero (record : Record) : record.moved 0 0 = record := by
  cases record with
  | mk comment target depth => cases target <;> rfl

-- ======================================================= the records

/-- The records of two texts with an empty line between them, of which the
first leaves the matcher at rest. -/
theorem run_joined {rules : Rules} (hplain : rules.isPlain = true)
    {options : ScanOptions} (hpatterns : options.ignorePatterns = [])
    {a : List Char} (hclosed : ∀ span ∈ rules.spans a, span.unclosed = none)
    (hrest :
      (Matcher.consume (rules.reading options a) {}
        (rules.items a)).matcher.AtRest)
    (b : List Char) :
    (Matcher.run (rules.reading options (a ++ '\n' :: '\n' :: b)) {}
        (rules.items (a ++ '\n' :: '\n' :: b))).records
      = (Matcher.run (rules.reading options a) {} (rules.items a)).records
        ++ (Matcher.run (rules.reading options b) {}
          (rules.items b)).records.map
          (·.moved (a.length + 2) (a.count '\n' + 2)) := by
  obtain ⟨front, back, hitems, hnear, hfront, hback⟩ :=
    items_joined hplain options hclosed b
  obtain ⟨hheld, hfinish⟩ := hrest.idle
  -- the first text is read as before, and its end brought nothing
  have hfresh : Matcher.AtRest {} := ⟨rfl, rfl, rfl, rfl⟩
  obtain ⟨hfollows, hrecords⟩ :=
    consume_moved (reading_front rules hpatterns a _) hfront {} {}
    (hfresh.follows rfl (Nat.le_refl 0) _ 0)
  rw [List.map_congr_left fun record _ => Record.moved_zero record,
    List.map_id'] at hrecords
  have hrunA := run_finish (rules.reading options a) {} (rules.items a)
  rw [hfinish, List.append_nil] at hrunA
  -- the second text is read as from the start
  have hheld' := hfollows.moved.held
  rw [hheld, List.map_nil] at hheld'
  have hreach :=
    consume_lastEnd (r := rules.reading options (a ++ '\n' :: '\n' :: b))
    front {} (Nat.zero_le _) hnear
  have hrunB := run_moved (reading_back rules hpatterns a b) hback
    ((hrest.moved hfollows.moved).follows hheld' (Nat.le_succ_of_le hreach) _ _)
  rw [hitems, run_append, hrunA, ← hrecords, ← hrunB]
  rfl

/-- Where a text leaves nothing unclosed, no comment waiting and no statement
or scope open, scanning it, an empty line and another text gives the records
of the first and then those of the second, further on. -/
theorem scan_joined_between_statements (dialect : Dialect)
    (settings : ScanSettings) (options : ScanOptions)
    (hcheck : settings.check = .ok options)
    (hpatterns : options.ignorePatterns = []) (rules : Rules)
    (hrules : dialect.rules.withOptions options = .ok rules) (a b : List Char)
    (hclosed : Span.diagnostics (.ofText a) (rules.spans a) = [])
    (hrest :
      (Matcher.consume (rules.reading options a) {}
        (rules.items a)).matcher.AtRest) :
    ∃ first second both, dialect.rules.scan options a = .ok first
      ∧ dialect.rules.scan options b = .ok second
      ∧ dialect.rules.scan options (a ++ '\n' :: '\n' :: b) = .ok both
      ∧ both.records
        = first.records ++ second.records.map
          (·.moved (a.length + 2) (a.count '\n' + 2)) := by
  have hscan : ∀ text, ∃ result, dialect.rules.scan options text = .ok result
      ∧ result.records
        = (Matcher.run (rules.reading options text) {}
          (rules.items text)).records := by
    intro text
    obtain ⟨applied, result, happlied, hscan, hrecords⟩ :=
      dialect.scan_ok hcheck text
    rw [hrules] at happlied
    cases happlied
    exact ⟨result, hscan, hrecords⟩
  have hunclosed : ∀ span ∈ rules.spans a, span.unclosed = none := by
    intro span hspan
    have hnone := List.filterMap_eq_nil_iff.1 hclosed span hspan
    exact Option.map_eq_none_iff.1 hnone
  obtain ⟨first, hfirst, hrecordsA⟩ := hscan a
  obtain ⟨second, hsecond, hrecordsB⟩ := hscan b
  obtain ⟨both, hboth, hrecords⟩ := hscan (a ++ '\n' :: '\n' :: b)
  refine ⟨first, second, both, hfirst, hsecond, hboth, ?_⟩
  rw [hrecords, hrecordsA, hrecordsB]
  exact run_joined (dialect.plain hrules) hpatterns hunclosed hrest b

/-- A text that ends in a directive which would go on in the next line. -/
def openDirective : List Char := "///f\nint f();\n#\\".toList

/-- A documented prototype. -/
def nextPrototype : List Char := "///g\nint g();".toList

/-- The first text ends in a directive that would go on in the next line. -/
theorem scan_joined_after_open_directive :
    ({} : ScanSettings).check = .ok {} ∧ ({} : ScanOptions).ignorePatterns = []
      ∧ Dialect.c.rules.withOptions {} = .ok Dialect.c.rules
      ∧ Span.diagnostics (.ofText openDirective)
        (Dialect.c.rules.spans openDirective) = []
      ∧ (Matcher.consume (Dialect.c.rules.reading {} openDirective) {}
        (Dialect.c.rules.items openDirective)).matcher.AtRest
      ∧ ∃ first second both,
        Dialect.c.rules.scan {} openDirective = .ok first
          ∧ Dialect.c.rules.scan {} nextPrototype = .ok second
          ∧ Dialect.c.rules.scan {}
            (openDirective ++ '\n' :: '\n' :: nextPrototype)
            = .ok both
          ∧ both.records = first.records
            ++ second.records.map (·.moved 18 4) := by
  have hclosed : Span.diagnostics (.ofText openDirective)
      (Dialect.c.rules.spans openDirective) = [] := by
    rw [Dialect.spans_eq]
    decide +kernel
  have hstate :
      (fun m : Matcher => (m.window, m.tracker.depth, m.tracker.header,
        m.tracker.parens))
      (Matcher.consume (Dialect.c.rules.reading {} openDirective) {}
        (Dialect.c.rules.items openDirective)).matcher = (none, 1, [], 0) := by
    rw [Dialect.items_eq]
    decide +kernel
  simp only [Prod.mk.injEq] at hstate
  have hrest : (Matcher.consume (Dialect.c.rules.reading {} openDirective) {}
      (Dialect.c.rules.items openDirective)).matcher.AtRest :=
    ⟨hstate.1, hstate.2.1, hstate.2.2.1, hstate.2.2.2⟩
  exact ⟨rfl, rfl, rfl, hclosed, hrest,
    scan_joined_between_statements .c {} {} rfl rfl _ rfl
    openDirective nextPrototype hclosed hrest⟩

end Marginalia
