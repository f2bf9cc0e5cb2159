/-
Which spans a comment is made of.

Reading the comments off the spans cuts the spans into groups: each comment
takes the spans from its first line to its last, and between these lie only
comments and white space. `Grouped` is this cutting as a derivation. One
step of the reading takes groups off the front (`readSpan_grouped`), where
the group of an open run is what was read since its first line and the
white space after its last.

From the groups follow the order of the comments and that no token starts
inside a comment.
-/
import Marginalia.Proofs.Comment.Step
import Marginalia.Proofs.Token.Order

namespace Marginalia

/-- The span holds no code: it is a comment or white space. -/
def Span.Idle (span : Span) : Prop :=
  (∃ kind, span.kind = .comment kind) ∨ Text.trimRight span.chars = []

/-- A comment made of the group of spans. -/
structure Covers (group : List Span) (c : Comment) : Prop where
  first : ∃ span, group.head? = some span ∧ c.start = span.start
  last : ∃ span, group.getLast? = some span ∧ c.stop = span.stop
  idle : ∀ span ∈ group, span.Idle

/-- Spans cut into comments and what is none. -/
inductive Grouped : List Span → List Comment → Prop where
  | nil : Grouped [] []
  /-- A span that is no comment. -/
  | between {span : Span} {spans : List Span} {comments : List Comment}
      (noComment : ∀ kind, span.kind ≠ .comment kind)
      (rest : Grouped spans comments) :
      Grouped (span :: spans) comments
  /-- The spans of a comment. -/
  | group {group spans : List Span} {c : Comment} {comments : List Comment}
      (covers : Covers group c) (rest : Grouped spans comments) :
      Grouped (group ++ spans) (c :: comments)

/-- White space after a group. -/
theorem Grouped.skip {blanks spans : List Span} {comments : List Comment}
    (hblanks : ∀ span ∈ blanks, ∀ kind, span.kind ≠ .comment kind)
    (h : Grouped spans comments) : Grouped (blanks ++ spans) comments := by
  induction blanks with
  | nil => exact h
  | cons span blanks ih =>
      exact .between (hblanks span List.mem_cons_self)
        (ih fun s hs => hblanks s (List.mem_cons_of_mem span hs))

/-- The comment of one span. -/
theorem Covers.single {span : Span} {kind : CommentKind} {c : Comment}
    (hkind : span.kind = .comment kind) (hstart : c.start = span.start)
    (hstop : c.stop = span.stop) : Covers [span] c where
  first := ⟨span, rfl, hstart⟩
  last := ⟨span, rfl, hstop⟩
  idle := by
    intro s hs
    rw [List.mem_singleton.1 hs]
    exact Or.inl ⟨kind, hkind⟩

/-- A run goes on over white space to one more line. -/
theorem Covers.extend {rules : Rules} {run : CommentRun}
    {group blanks : List Span} {span : Span} {marker : DocMarker}
    {kind : CommentKind} (h : Covers group (run.comment rules))
    (hblanks : ∀ s ∈ blanks, Text.trimRight s.chars = [])
    (hkind : span.kind = .comment kind) :
    Covers (group ++ blanks ++ [span])
      ((run.push span marker).comment rules) where
  first := by
    obtain ⟨first, hhead, hstart⟩ := h.first
    refine ⟨first, ?_, hstart⟩
    cases group with
    | nil => cases hhead
    | cons s group => exact hhead
  last := ⟨span, by simp, rfl⟩
  idle := by
    intro s hs
    rcases List.mem_append.1 hs with hs | hs
    · rcases List.mem_append.1 hs with hs | hs
      · exact h.idle s hs
      · exact Or.inr (hblanks s hs)
    · rw [List.mem_singleton.1 hs]
      exact Or.inl ⟨kind, hkind⟩

/-- The run that is open, with the spans it is made of and the white space
after them. -/
def RunSpans (rules : Rules) (read : List Span) : Option CommentRun → Prop
  | none => read = []
  | some run =>
    ∃ group blanks, read = group ++ blanks ∧ Covers group (run.comment rules)
      ∧ ∀ span ∈ blanks, (∀ kind, span.kind ≠ .comment kind)
        ∧ Text.trimRight span.chars = []

/-- Finishing the open run. -/
theorem RunSpans.finish {rules : Rules} {read spans : List Span}
    {run : Option CommentRun} {comments : List Comment}
    (hrun : RunSpans rules read run) (h : Grouped spans comments) :
    Grouped (read ++ spans) (rules.finishRun run ++ comments) := by
  cases run with
  | none =>
      have hread : read = [] := hrun
      rw [hread]
      exact h
  | some run =>
      obtain ⟨group, blanks, rfl, hcovers, hblanks⟩ := hrun
      rw [List.append_assoc]
      exact .group hcovers (h.skip fun span hspan => (hblanks span hspan).1)

/-- One span: what it finishes takes groups of spans off the front, and the
rest belongs to the run that is then open. -/
theorem readSpan_grouped (rules : Rules) (lines : Text.Lines)
    {state : CommentState} {read : List Span}
    (hrun : RunSpans rules read state.run) (span : Span) :
    ∃ read', RunSpans rules read' (rules.readSpan lines state span).2.run
      ∧ ∀ spans comments, Grouped (read' ++ spans) comments →
        Grouped (read ++ span :: spans)
          ((rules.readSpan lines state span).1 ++ comments) := by
  by_cases hkind : ∃ kind, span.kind = .comment kind
  · obtain ⟨kind, hkind⟩ := hkind
    rw [readSpan_comment rules lines state hkind]
    unfold Rules.readComment Rules.readVerdict
    simp only
    split
    · next marker _ =>
      split
      · -- the line joins the run
        next hadmits =>
        obtain ⟨run, hsome, -⟩ := (Option.any_eq_true _ _).1 hadmits
        rw [hsome] at hrun
        obtain ⟨group, blanks, rfl, hcovers, hblanks⟩ := hrun
        refine ⟨group ++ blanks ++ [span], ?_, fun spans comments h => ?_⟩
        · rw [hsome]
          exact ⟨_, [], (List.append_nil _).symm,
            hcovers.extend (fun s hs => (hblanks s hs).2) hkind,
            fun s hs => absurd hs (by simp)⟩
        · rw [List.append_assoc _ [span]] at h
          exact h
      · -- the line starts a run of its own
        refine ⟨[span], ⟨[span], [], rfl, .single hkind rfl rfl, ?_⟩,
          fun _ _ h => hrun.finish h⟩
        exact fun s hs => absurd hs (by simp)
    · refine ⟨[], rfl, fun spans comments h => ?_⟩
      rw [List.append_assoc]
      exact hrun.finish (.group (.single hkind rfl rfl) h)
  · have hno : ∀ kind, span.kind ≠ .comment kind :=
      fun kind h => hkind ⟨kind, h⟩
    rw [readSpan_code rules lines state hno]
    unfold Rules.readCode
    simp only
    split
    · next hblank =>
      have htrim : Text.trimRight span.chars = [] := List.isEmpty_iff.1 hblank
      cases hsome : state.run with
      | none =>
          rw [hsome] at hrun
          have hread : read = [] := hrun
          rw [hread]
          exact ⟨[], rfl, fun _ _ h => .between hno h⟩
      | some run =>
          rw [hsome] at hrun
          obtain ⟨group, blanks, rfl, hcovers, hblanks⟩ := hrun
          refine ⟨group ++ (blanks ++ [span]), ⟨group, blanks ++ [span], rfl,
            ⟨hcovers.first, hcovers.last, hcovers.idle⟩, fun s hs => ?_⟩,
            fun spans comments h => ?_⟩
          · rcases List.mem_append.1 hs with hs | hs
            · exact hblanks s hs
            · rw [List.mem_singleton.1 hs]
              exact ⟨hno, htrim⟩
          · simpa using h
    · exact ⟨[], rfl, fun _ _ h => hrun.finish (.between hno h)⟩

/-- The comments of the spans, with those of the open run in front, are made
of groups of them. -/
theorem commentsFrom_grouped (rules : Rules) (lines : Text.Lines)
    (spans : List Span) :
    ∀ (state : CommentState) (read : List Span), RunSpans rules read state.run →
      Grouped (read ++ spans)
        (rules.commentsFrom lines state.codeLine state.run spans) := by
  induction spans with
  | nil =>
      intro state read hrun
      simpa [Rules.commentsFrom] using hrun.finish .nil
  | cons span spans ih =>
      intro state read hrun
      obtain ⟨read', hrun', hgroup⟩ := readSpan_grouped rules lines hrun span
      rw [commentsFrom_cons]
      exact hgroup spans _ (ih _ read' hrun')

/-- The comments of a text are made of groups of its spans. -/
theorem comments_grouped (rules : Rules) (lines : Text.Lines)
    (spans : List Span) :
    Grouped spans (rules.comments lines spans) :=
  commentsFrom_grouped rules lines spans {} [] rfl

-- ============================================================= order

/-- A comment lies where its group does. -/
theorem Covers.bounds {offset : Nat} {group : List Span} {c : Comment}
    (h : Covers group c) (htiles : Tiles offset group) :
    c.start = offset ∧ c.start < c.stop ∧ c.stop ≤ tilesEnd offset group := by
  obtain ⟨first, hfirst, hstart⟩ := h.first
  obtain ⟨last, hlast, hstop⟩ := h.last
  have hoffset : first.start = offset := by
    cases group with
    | nil => cases hfirst
    | cons s group =>
        injection hfirst with hs
        rw [← hs]
        exact htiles.1
  obtain ⟨hlow, hlt, hhigh⟩ := htiles.mem (List.mem_of_mem_getLast? hlast)
  rw [hstart, hstop, hoffset]
  exact ⟨rfl, by omega, hhigh⟩

/-- Comments lie in their tiling, one behind the other. -/
theorem Grouped.ordered {spans : List Span} {comments : List Comment}
    (h : Grouped spans comments) :
    ∀ offset, Tiles offset spans →
      (∀ c ∈ comments,
        offset ≤ c.start ∧ c.start < c.stop ∧ c.stop ≤ tilesEnd offset spans)
      ∧ comments.Pairwise fun c d => c.stop ≤ d.start := by
  induction h with
  | nil => intro offset _; exact ⟨fun c hc => absurd hc (by simp), .nil⟩
  | @between span spans comments _ _ ih =>
      intro offset htiles
      obtain ⟨rfl, -, htail⟩ := htiles
      obtain ⟨hbounds, hpairs⟩ := ih span.stop htail
      have hle : span.start ≤ span.stop := Nat.le_add_right _ _
      refine ⟨fun c hc => ?_, hpairs⟩
      obtain ⟨hlow, hlt, hhigh⟩ := hbounds c hc
      rw [tilesEnd_cons]
      exact ⟨by omega, hlt, hhigh⟩
  | @group group spans c comments covers _ ih =>
      intro offset htiles
      obtain ⟨hgroup, hrest⟩ := htiles.of_append
      obtain ⟨hstart, hlt, hstop⟩ := covers.bounds hgroup
      obtain ⟨hbounds, hpairs⟩ := ih _ hrest
      have hend : tilesEnd offset (group ++ spans)
          = tilesEnd (tilesEnd offset group) spans := by
        simp only [tilesEnd, List.flatMap_append, List.length_append]
        omega
      have hle : tilesEnd offset group
          ≤ tilesEnd (tilesEnd offset group) spans := tilesEnd_le
      have hle' : offset ≤ tilesEnd offset group := tilesEnd_le
      rw [hend]
      refine ⟨fun d hd => ?_, List.pairwise_cons.2 ⟨fun d hd => ?_, hpairs⟩⟩
      · rcases List.mem_cons.1 hd with rfl | hd
        · omega
        · obtain ⟨h1, h2, h3⟩ := hbounds d hd
          omega
      · obtain ⟨h1, h2, h3⟩ := hbounds d hd
        omega

/-- No token meets a comment, where idle spans have no tokens. -/
theorem Grouped.apart {spans : List Span} {comments : List Comment}
    (h : Grouped spans comments) :
    ∀ offset, Tiles offset spans →
    (∀ span ∈ spans, span.Idle → span.tokens = []) →
      ∀ c ∈ comments, ∀ t ∈ spans.flatMap Span.tokens,
        t.stop ≤ c.start ∨ c.stop ≤ t.start := by
  induction h with
  | nil => intro offset _ _ c hc; exact absurd hc (by simp)
  | @between span spans comments _ hrest ih =>
      intro offset htiles hidle c hc t ht
      obtain ⟨rfl, hne, htail⟩ := htiles
      rw [List.flatMap_cons] at ht
      rcases List.mem_append.1 ht with ht | ht
      · obtain ⟨-, -, hstop⟩ := (span.tokens_ordered hne).1 t ht
        obtain ⟨hlow, -, -⟩ := (hrest.ordered span.stop htail).1 c hc
        exact Or.inl (by omega)
      · exact ih span.stop htail
          (fun s hs => hidle s (List.mem_cons_of_mem span hs)) c hc t ht
  | @group group spans c comments covers hrest ih =>
      intro offset htiles hidle d hd t ht
      obtain ⟨hgroup, htail⟩ := htiles.of_append
      have hnone : group.flatMap Span.tokens = [] := by
        refine List.flatMap_eq_nil_iff.2 fun s hs => ?_
        exact hidle s (List.mem_append_left _ hs) (covers.idle s hs)
      rw [List.flatMap_append, hnone, List.nil_append] at ht
      rcases List.mem_cons.1 hd with rfl | hd
      · obtain ⟨-, -, hstop⟩ := covers.bounds hgroup
        obtain ⟨hlow, -, -⟩ := htail.tokens_ordered.1 t ht
        exact Or.inr (by omega)
      · exact ih _ htail (fun s hs => hidle s (List.mem_append_right _ hs))
          d hd t ht

end Marginalia
