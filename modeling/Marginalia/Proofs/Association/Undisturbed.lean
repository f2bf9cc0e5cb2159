/-
Comments inside a statement for which a comment waits.

While a comment waits and a token was read behind it, no further comment takes
its place and no empty line parts it from the code. So where no statement ends
at a line break, whatever comment stands there has a record, if it is a doc
comment, and the run goes on as if it were not there: `Undisturbed` relates the
matcher that has met the comment to one that has not.

What the two do not share is how far they have read, since the end of the
comment counts. That is looked at again only behind a later outer comment which
opens a window of its own, and such a comment ends behind this one.
-/
import Marginalia.Proofs.Association.BackToBack
import Marginalia.Proofs.Association.Hidden

namespace Marginalia

/-- The second matcher is the first, had it not met the comment. -/
structure Matcher.Undisturbed (c : Comment) (m m' : Matcher) : Prop where
  hides : m.Hides (· != c) m'
  sameReach : m.SameReach m'
  /-- Behind the comment both have read equally far. -/
  reached : max m'.lastEnd c.stop = max m.lastEnd c.stop

section

variable {reading : Reading} {c : Comment} {m m' : Matcher}

/-- Behind a comment that ends further on, both have read equally far; behind a
token they have where a comment waits unread, since it waited in front. -/
theorem Matcher.Undisturbed.step_sameReach (h : m.Undisturbed c m')
    {item : Item} (hitem : ∀ d, item = .comment d → c.stop ≤ d.stop) :
    (m.step reading item).matcher.SameReach (m'.step reading item).matcher := by
  intro hunread
  rw [step_lastEnd, step_lastEnd]
  cases item with
  | comment d =>
      have hle := hitem d rfl
      have hreached := h.reached
      show max m'.lastEnd d.stop = max m.lastEnd d.stop
      omega
  | token t =>
      cases hw' : (m.step reading (.token t)).matcher.window with
      | none =>
          rw [hw'] at hunread
          cases hunread
      | some w' =>
          rw [hw', Option.any_some, beq_iff_eq] at hunread
          obtain ⟨w, hw, rfl⟩ := step_window rfl hw'
          rw [Window.passes_tokens] at hunread
          have hend : m'.lastEnd = m.lastEnd := h.sameReach <| by
            rw [hw, Option.any_some, beq_iff_eq]
            omega
          rw [hend]

/-- An item behind the comment. -/
theorem Matcher.Undisturbed.step (h : m.Undisturbed c m') {item : Item}
    (hitem : ∀ d, item = .comment d → d ≠ c ∧ c.stop ≤ d.stop) :
    (m.step reading item).Hides (· != c) (m'.step reading item)
      ∧ (m.step reading item).matcher.Undisturbed c
        (m'.step reading item).matcher := by
  have hkept : ∀ d, item.doc? = some d → (d != c) = true :=
    fun d hd => bne_iff_ne.2 (hitem d (Item.of_doc? hd).1).1
  have hstep : (m.step reading item).Hides (· != c) (m'.step reading item) :=
    h.hides.step h.sameReach hkept
  refine ⟨hstep, hstep.matcher, h.step_sameReach fun d hd => (hitem d hd).2, ?_⟩
  have hreached := h.reached
  rw [step_lastEnd, step_lastEnd]
  omega

theorem Matcher.Undisturbed.run (items : List Item) :
    ∀ {m m' : Matcher}, m.Undisturbed c m' →
      (∀ d, Item.comment d ∈ items → d ≠ c ∧ c.stop ≤ d.stop) →
      (m.run reading items).Hides (· != c) (m'.run reading items) := by
  induction items with
  | nil =>
      intro m m' h _
      exact h.hides.finish
  | cons item items ih =>
      intro m m' h hitems
      obtain ⟨hstep, hnext⟩ :=
        h.step fun d hd => hitems d (hd ▸ List.mem_cons_self)
      exact hstep.andThen fun _ => ih hnext fun d hd =>
        hitems d (List.mem_cons_of_mem item hd)

/-- The comment itself, where another waits for a statement of which something
was read. -/
theorem Matcher.Hides.interrupted
    (hbreaks : reading.rules.newlineTerminates = false) (h : m.Hides (· != c) m)
    {w : Window} (hw : m.window = some w) (htokens : 0 < w.tokens) :
    (m.step reading (.comment c)).Hides (· != c) { matcher := m } := by
  have hdetach : m.detach reading c.start = { matcher := m } := by
    have hread : (w.tokens == 0) = false := beq_eq_false_iff_ne.2 (by omega)
    simp [Matcher.detach, hw, hread]
  have hcomment : (m.onComment reading c).Hides (· != c) { matcher := m } := by
    unfold Matcher.onComment
    rw [hdetach]
    show (if c.isDoc then m.onDoc reading c else { matcher := m }).Hides _ _
    split
    · exact h.onDoc_hidden hbreaks (bne_self_eq_false c)
        (.inr (by simp [hw, htokens]))
    · exact h.matched []
  exact hcomment.reach _ _

/-- A stream with a comment inside a statement for which another waits, and the
stream without it. -/
theorem run_undisturbed (hbreaks : reading.rules.newlineTerminates = false)
    {before after : List Item} (hbefore : Item.comment c ∉ before)
    (hafter : ∀ d, Item.comment d ∈ after → d ≠ c ∧ c.stop ≤ d.stop)
    {w : Window}
    (hw : (Matcher.consume reading {} before).matcher.window = some w)
    (htokens : 0 < w.tokens) :
    (Matcher.run reading {} (before ++ .comment c :: after)).Hides (· != c)
      (Matcher.run reading {} (before ++ after)) := by
  have hkept : ∀ item ∈ before, ∀ d, item.doc? = some d → (d != c) = true := by
    intro item hitem d hd
    obtain ⟨rfl, -⟩ := Item.of_doc? hd
    exact bne_iff_ne.2 fun heq => hbefore (heq ▸ hitem)
  rw [run_append, run_append]
  refine (Matcher.Hides.consume before ⟨rfl, rfl, by simp,
    rfl⟩ rfl hkept).andThen fun h => ?_
  generalize (Matcher.consume reading {} before).matcher = m at h hw
  show (Matched.andThen _ _).Hides _
    (Matched.andThen { matcher := m } (·.run reading after))
  refine (h.interrupted hbreaks hw htokens).andThen fun hnext => ?_
  refine Matcher.Undisturbed.run after ⟨hnext, fun hunread => ?_, ?_⟩ hafter
  · have hwindow : (m.step reading (.comment c)).matcher.window = some w :=
      hnext.window.symm.trans hw
    rw [hwindow, Option.any_some, beq_iff_eq] at hunread
    omega
  · rw [step_lastEnd]
    show max m.lastEnd c.stop = max (max m.lastEnd c.stop) c.stop
    omega

end

/-- In a scan of a dialect where no statement ends at a line break, a comment
inside a statement for which another comment waits, with a token read in
between, adds its own record and changes nothing else: neither another record
nor what the scopes end with. -/
theorem comment_in_header_disturbs_nothing (dialect : Dialect)
    (hbreaks : dialect.rules.newlineTerminates = false)
    (settings : ScanSettings) (options : ScanOptions)
    (hcheck : settings.check = .ok options) (text : List Char) :
    ∃ rules, dialect.rules.withOptions options = .ok rules
      ∧ ∀ (before : List Item) (c : Comment) (after : List Item) (w : Window),
        rules.items text = before ++ .comment c :: after →
        (Matcher.consume (rules.reading options text) {} before).matcher.window
          = some w →
        0 < w.tokens →
        let met :=
  Matcher.run (rules.reading options text) {} (before ++ .comment c :: after)
        let unmet :=
          Matcher.run (rules.reading options text) {} (before ++ after)
        unmet.records = met.records.filter (·.comment != c)
          ∧ unmet.matcher.tracker = met.matcher.tracker := by
  obtain ⟨rules, hrules⟩ := dialect.withOptions_ok hcheck
  refine ⟨rules, hrules, fun before c after w hsplit hw htokens => ?_⟩
  have hlines : (rules.reading options text).rules.newlineTerminates
      = false := by
    obtain ⟨markers, rfl⟩ := withOptions_eq hrules
    exact hbreaks
  have hbounds : ∀ d, .comment d ∈ rules.items text → d.start < d.stop :=
    fun d hd =>
      ((commentsOf_ordered rules text).1 d (mem_mergeItems_comment.1 hd)).1
  have hc : c.start < c.stop := hbounds c (by simp [hsplit])
  obtain ⟨hfront, hbehind⟩ :=
    comments_around_comment (dialect.plain hrules) hsplit
  have hbefore : .comment c ∉ before := by
    intro hmem
    have hle := hfront c hmem
    omega
  have hafter : ∀ d, .comment d ∈ after → d ≠ c ∧ c.stop ≤ d.stop := by
    intro d hd
    have hle := hbehind d hd
    have hlt := hbounds d (by simp [hsplit, hd])
    refine ⟨?_, by omega⟩
    rintro rfl
    omega
  have hhides := run_undisturbed hlines hbefore hafter hw htokens
  exact ⟨hhides.records, hhides.matcher.tracker⟩

/-- A function and its parameter, both documented. -/
def functionAndParameter : List Char := "///a\nf(\n///b\nx)\x7b\x7d".toList

/-- A comment at a parameter of a function that has a comment of its own. -/
theorem parameter_comment_disturbs_nothing :
    Dialect.java.rules.newlineTerminates = false
      ∧ ({} : ScanSettings).check = .ok {}
      ∧ ∃ (before : List Item) (c : Comment) (after : List Item) (w : Window),
        Dialect.java.rules.items functionAndParameter
          = before ++ .comment c :: after
        ∧ (Matcher.consume (Dialect.java.rules.reading {}
            functionAndParameter) {} before).matcher.window = some w
        ∧ w.tokens = 2
        ∧ (Matcher.run (Dialect.java.rules.reading {} functionAndParameter) {}
            (before ++ .comment c :: after)).records.map (·.comment)
              = [w.comment, c]
        ∧ (Matcher.run (Dialect.java.rules.reading {} functionAndParameter) {}
            (before ++ after)).records
          = (Matcher.run (Dialect.java.rules.reading {} functionAndParameter) {}
              (before ++ .comment c :: after)).records.filter
                (·.comment != c) := by
  obtain ⟨rules, hrules, hundisturbed⟩ :=
    comment_in_header_disturbs_nothing .java rfl {} {} rfl functionAndParameter
  have happlied : Dialect.java.rules = rules := Except.ok.inj hrules
  rw [← happlied] at hundisturbed
  have hitems : Dialect.java.rules.items functionAndParameter
      = [.comment ⟨"a", .doc, 0, 4, .java, .line, .outer, 1⟩,
        .token ⟨.word, 5, "f"⟩,
          .token ⟨.punct, 6, "("⟩]
        ++ .comment ⟨"b", .doc, 8, 12, .java, .line, .outer, 3⟩
        :: [.token ⟨.word, 13, "x"⟩, .token ⟨.punct, 14, ")"⟩,
          .token ⟨.punct, 15, "\x7b"⟩, .token ⟨.punct, 16, "\x7d"⟩] := by
    rw [Dialect.items_eq]
    decide +kernel
  have hwindow : (Matcher.consume (Dialect.java.rules.reading {}
      functionAndParameter) {}
      [.comment ⟨"a", .doc, 0, 4, .java, .line, .outer, 1⟩,
       .token ⟨.word, 5, "f"⟩,
        .token ⟨.punct, 6, "("⟩]).matcher.window
      = some ⟨⟨"a", .doc, 0, 4, .java, .line, .outer, 1⟩, 1, false, some 5,
        2⟩ := by
    rfl
  exact ⟨rfl, rfl, _, _, _, _, hitems, hwindow, rfl, run_comments _ _ _,
    (hundisturbed _ _ _ _ hitems hwindow (by decide)).1⟩

end Marginalia
