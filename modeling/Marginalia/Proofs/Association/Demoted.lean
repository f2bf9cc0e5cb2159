/-
Runs without the inner comments.

Where no statement ends at a line break, an inner doc comment does to a run
what a plain comment at its place would do, and puts out a record of its own.
The plain comments on its lines do no more than the first of them, since no
empty line parts them. So a run over a stream in which inner doc comments gave
way to such lines is the same run without its inner records (`run_demoted`).

The simulation is `Hides`, outer comments being those to keep. An open window
always belongs to an outer comment, so closing one never hides a record.
-/
import Marginalia.Proofs.Association.Hidden
import Marginalia.Proofs.Association.Stream
import Marginalia.Proofs.Comment.Demoted

namespace Marginalia

-- ======================================================== the stream

/-- A stream with inner markers and without them: an inner doc comment gives
way to the plain comments on its lines. -/
inductive DemotedItems (text : List Char) : List Item → List Item → Prop where
  | nil : DemotedItems text [] []
  | token (t : Token) {items items' : List Item}
    (rest : DemotedItems text items items') :
      DemotedItems text (.token t :: items) (.token t :: items')
  | keep {c : Comment} {items items' : List Item}
      (outer : c.isDoc = true → c.placement = .outer)
      (rest : DemotedItems text items items') :
      DemotedItems text (.comment c :: items) (.comment c :: items')
  | demote {c : Comment} {lines : List Comment} {items items' : List Item}
      (doc : c.isDoc = true) (inner : c.placement = .inner)
      (covers : PlainLines text c.start c.stop lines)
      (rest : DemotedItems text items items') :
      DemotedItems text (.comment c :: items) (lines.map .comment ++ items')

/-- Comments that start before the first token are merged in front. -/
theorem mergeItems_comments_first (front : List Comment) {ts : List Token}
    (h : ∀ c ∈ front, ∀ t ∈ ts.head?, c.start ≤ t.start) (cs : List Comment) :
    mergeItems (front ++ cs) ts = front.map .comment ++ mergeItems cs ts := by
  induction front with
  | nil => rfl
  | cons c front ih =>
      rw [List.cons_append, mergeItems_comment_first (h c List.mem_cons_self),
        ih fun d hd => h d (List.mem_cons_of_mem c hd)]
      rfl

section

variable {text : List Char}

/-- The first plain line starts where the comment did. -/
theorem PlainLines.head? {start stop : Nat} {cs : List Comment}
    (h : PlainLines text start stop cs) :
    ∃ c, cs.head? = some c ∧ c.start = start := by
  cases h with
  | last => exact ⟨_, rfl, rfl⟩
  | next => exact ⟨_, rfl, rfl⟩

/-- Tokens stay as they are. -/
theorem DemotedItems.tokens (ts : List Token) :
    DemotedItems text (ts.map .token) (ts.map .token) := by
  induction ts with
  | nil => exact .nil
  | cons t ts ih => exact .token t ih

/-- Two lists of comments that start at one place are merged alike up to
there. -/
theorem DemotedItems.merge_up_to {cs ds : List Comment} (start : Nat)
    (hcs : ∀ c ∈ cs.head?, c.start = start)
    (hds : ∀ d ∈ ds.head?, d.start = start) (ts : List Token)
    (hrest : ∀ late, late <:+ ts → (∀ t ∈ late.head?, start ≤ t.start) →
      DemotedItems text (mergeItems cs late) (mergeItems ds late)) :
    DemotedItems text (mergeItems cs ts) (mergeItems ds ts) := by
  induction ts with
  | nil => exact hrest [] List.suffix_rfl fun _ ht => nomatch ht
  | cons t ts ih =>
      by_cases hle : start ≤ t.start
      · refine hrest (t :: ts) List.suffix_rfl fun u hu => ?_
        rw [← Option.some.inj hu]
        exact hle
      · have hlt : t.start < start := Nat.not_le.1 hle
        rw [mergeItems_token_first fun c hc => (hcs c hc).symm ▸ hlt,
          mergeItems_token_first fun d hd => (hds d hd).symm ▸ hlt]
        exact .token t (ih fun late hlate =>
          hrest late (hlate.trans (List.suffix_cons t ts)))

/-- Merging in tokens that start in no comment. -/
theorem Demoted.merge {cs ds : List Comment} (h : Demoted text cs ds) :
    ∀ ts : List Token,
      (∀ c ∈ cs, ∀ t ∈ ts, t.start < c.start ∨ c.stop ≤ t.start) →
      DemotedItems text (mergeItems cs ts) (mergeItems ds ts) := by
  have hstart : ∀ (c : Comment) (cs : List Comment), ∀ d ∈ (c :: cs).head?,
      d.start = c.start :=
    fun c cs d hd => by rw [← Option.some.inj hd]
  induction h with
  | nil =>
      intro ts _
      rw [mergeItems, List.map_nil, List.nil_merge]
      exact .tokens ts
  | @keep c cs ds outer rest ih =>
      intro ts hapart
      refine .merge_up_to c.start (hstart c cs) (hstart c ds) ts
        fun late hlate hle => ?_
      rw [mergeItems_comment_first hle, mergeItems_comment_first hle]
      exact .keep outer (ih late fun b hb t ht =>
        hapart b (List.mem_cons_of_mem c hb) t (hlate.subset ht))
  | @demote c lines cs ds doc inner covers rest ih =>
      intro ts hapart
      obtain ⟨first, hfirst, hplace⟩ := covers.head?
      have hhead : (lines ++ ds).head? = some first := by
        rw [List.head?_append, hfirst]; rfl
      refine .merge_up_to c.start (hstart c cs) (fun d hd => ?_) ts
        fun late hlate hle => ?_
      · rw [← Option.some.inj (hhead.symm.trans hd)]
        exact hplace
      · -- the next token starts behind the comment, so behind each of its lines
        have hbehind : ∀ line ∈ lines, ∀ t ∈ late.head?,
            line.start ≤ t.start := by
          intro line hline t ht
          have hbefore := covers.start_le line hline
          have hle := hle t ht
          have hmem : t ∈ ts := hlate.subset (List.mem_of_head? ht)
          rcases hapart c List.mem_cons_self t hmem with hlt | hge <;> omega
        rw [mergeItems_comment_first hle,
          mergeItems_comments_first lines hbehind]
        exact .demote doc inner covers (ih late fun b hb t ht =>
          hapart b (List.mem_cons_of_mem c hb) t (hlate.subset ht))

end

-- ============================================= without inner records

/-- Whether the record is one of an outer comment. -/
def Record.isOuter (record : Record) : Bool :=
  record.comment.placement == .outer

def Comment.isOuter (c : Comment) : Bool := c.placement == .outer

theorem Matched.andThen_silent (x : Matched) :
    x.andThen (fun m => { matcher := m }) = x := by
  simp only [Matched.andThen, List.append_nil]

section

variable {reading : Reading} {m m' : Matcher}

/-- Where no statement ends at a line break, an inner doc comment is a plain
one with a record. -/
theorem Matcher.Hides.onInner
    (hbreaks : reading.rules.newlineTerminates = false)
    (h : m.Hides Comment.isOuter m') (hreach : m.SameReach m') {c : Comment}
    (hdoc : c.isDoc = true) (hinner : c.placement = .inner) :
    (m.onComment reading c).Hides Comment.isOuter
      (m'.detach reading c.start) := by
  have hhidden : c.isOuter = false :=
    beq_eq_false_iff_ne.2 fun h => nomatch hinner.symm.trans h
  rw [← Matched.andThen_silent (m'.detach reading c.start)]
  refine (h.detach hreach c.start).andThen fun h => ?_
  rw [if_pos hdoc]
  exact h.onDoc_hidden hbreaks hhidden (.inl hinner)

-- ======================================================== whole runs

/-- A step that has read up to the offset. -/
def Matched.reach (x : Matched) (stop : Nat) : Matched :=
  { x with matcher := { x.matcher with lastEnd := max x.matcher.lastEnd stop } }

/-- Two line feeds make an empty line, one does not. -/
theorem emptyLineFrom_count (cs : List Char) :
    ∀ afterBreak : Bool, cs.count '\n' + afterBreak.toNat ≤ 1 →
      Text.emptyLineFrom afterBreak cs = false := by
  induction cs with
  | nil => intro _ _; rfl
  | cons c cs ih =>
      intro afterBreak h
      rw [Text.emptyLineFrom]
      by_cases hbreak : c = '\n'
      · rw [hbreak, List.count_cons_self] at h
        have hafter : afterBreak.toNat = 0 := by omega
        rw [if_pos (beq_iff_eq.2 hbreak), Bool.toNat_eq_zero.1 hafter,
          Bool.false_or]
        exact ih true (by simp only [Bool.toNat_true]; omega)
      · rw [List.count_cons_of_ne hbreak] at h
        rw [if_neg fun hc => hbreak (beq_iff_eq.1 hc)]
        refine ih _ (Nat.le_trans (Nat.add_le_add_left ?_ _) h)
        cases afterBreak with
        | false => exact Nat.le_refl _
        | true => exact Bool.toNat_le _

/-- No empty line stands where there is at most one line feed. -/
theorem hasEmptyLine_of_count {text : List Char} {start stop : Nat}
    (h : (Text.slice text start stop).count '\n' ≤ 1) (reached : Nat) :
    Text.hasEmptyLine text (max reached start) stop = false := by
  have hslice : Text.slice text (max reached start) stop
      = (Text.slice text start stop).drop (max reached start - start) := by
    have hstart : start + (max reached start - start) = max reached start := by
      omega
    have hlength : stop - start - (max reached start - start)
        = stop - max reached start := by
      omega
    unfold Text.slice
    rw [List.drop_take, List.drop_drop, hstart, hlength]
  refine emptyLineFrom_count _ false (Nat.le_trans ?_ h)
  rw [hslice]
  exact (List.drop_sublist _ _).count_le _

/-- Plain comments with no empty line between them do what the first of them
does. -/
theorem consume_plainLines {start stop : Nat} {lines : List Comment}
    (h : PlainLines reading.text start stop lines) :
    ∀ m : Matcher, m.consume reading (lines.map .comment)
      = (m.detach reading start).reach stop := by
  have hplain : ∀ (m : Matcher) (c : Comment), c.isDoc = false →
      m.step reading (.comment c)
        = (m.detach reading c.start).reach c.stop := by
    intro m c hc
    show (m.onComment reading c).reach c.stop = _
    simp only [Matcher.onComment, hc, Bool.false_eq_true, if_false,
      Matched.andThen_silent]
  induction h with
  | @last c plain _ =>
      intro m
      show (m.step reading (.comment c)).andThen (fun m => { matcher := m }) = _
      rw [Matched.andThen_silent, hplain m c plain]
  | @next c start stop lines plain _ behind gap rest ih =>
      intro m
      show (m.step reading (.comment c)).andThen
        (fun m => m.consume reading (lines.map .comment)) = _
      rw [hplain m c plain]
      generalize m.detach reading c.start = x
      have hdetach : (x.reach c.stop).matcher.detach reading start
          = { matcher := (x.reach c.stop).matcher } := by
        have hempty := hasEmptyLine_of_count gap x.matcher.lastEnd
        simp [Matcher.detach, Matched.reach, hempty]
      have hmax : max (max x.matcher.lastEnd c.stop) stop
          = max x.matcher.lastEnd stop := by
        have hle := rest.le
        omega
      simp only [Matched.andThen, ih, hdetach]
      simp only [Matched.reach, hmax, List.append_nil]

/-- A run over a stream without its inner doc comments. -/
theorem run_demoted (hbreaks : reading.rules.newlineTerminates = false)
    {items items' : List Item} (h : DemotedItems reading.text items items') :
    ∀ m m' : Matcher, m.Hides Comment.isOuter m' → m'.lastEnd = m.lastEnd →
      (m.run reading items).Hides Comment.isOuter (m'.run reading items') := by
  have hboth : ∀ (m m' : Matcher) (item : Item), m'.lastEnd = m.lastEnd →
      (m'.step reading item).matcher.lastEnd
        = (m.step reading item).matcher.lastEnd := by
    intro m m' item hend
    rw [step_lastEnd, step_lastEnd, hend]
  induction h with
  | nil => exact fun m m' hm _ => hm.finish
  | token t _ ih =>
      intro m m' hm hend
      exact (hm.step (fun _ => hend) (by simp [Item.doc?])).andThen
        fun hm => ih _ _ hm (hboth m m' _ hend)
  | @keep c _ _ outer _ ih =>
      intro m m' hm hend
      refine (hm.step (fun _ => hend) fun d hd => ?_).andThen
        fun hm => ih _ _ hm (hboth m m' _ hend)
      obtain ⟨hsame, hdoc⟩ := Item.of_doc? hd
      obtain rfl := Item.comment.inj hsame
      exact beq_iff_eq.2 (outer hdoc)
  | @demote c _ _ _ doc inner covers _ ih =>
      intro m m' hm hend
      rw [run_append, consume_plainLines covers]
      refine ((hm.onInner hbreaks (fun _ => hend) doc inner).reach _ _).andThen
        fun hm => ih _ _ hm ?_
      have hstep := step_lastEnd reading m (.comment c)
      rw [← hend, ← detach_lastEnd reading m' c.start] at hstep
      exact hstep.symm

end

end Marginalia
