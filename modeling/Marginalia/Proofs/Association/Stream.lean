/-
The stream of a text's comments and tokens.

Merging keeps each comment and each token, and the doc comments of the
stream are those of the text (`items_docs`). No two items start at one
place, so the stream is strictly ordered (`items_increasing`), and what
follows a comment in the stream follows it in the text
(`items_around_comment`).
-/
import Marginalia.Proofs.Association.Encounter
import Marginalia.Proofs.Comment.Grouping
import Marginalia.Proofs.Span.Plain
import Marginalia.Scan.Basic
import Mathlib.Data.List.Pairwise

namespace Marginalia

-- =========================================================== merging

/-- What is read off one of two lists only is read off their merger in order. -/
theorem filterMap_merge {α β : Type} {f : α → Option β} (le : α → α → Bool)
    (xs : List α) :
    ∀ ys : List α, ((∀ x ∈ xs, f x = none) ∨ ∀ y ∈ ys, f y = none) →
      (xs.merge ys le).filterMap f = xs.filterMap f ++ ys.filterMap f := by
  induction xs with
  | nil =>
      intro ys _
      rw [List.nil_merge]
      rfl
  | cons x xs ih =>
      intro ys
      induction ys with
      | nil =>
          intro _
          rw [List.merge_right, List.filterMap_nil, List.append_nil]
      | cons y ys ihy =>
          intro h
          have hxs : (∀ z ∈ xs, f z = none) ∨ ∀ z ∈ y :: ys, f z = none := by
            rcases h with hx | hy
            · exact Or.inl fun z hz => hx z (List.mem_cons_of_mem x hz)
            · exact Or.inr hy
          have hys : (∀ z ∈ x :: xs, f z = none) ∨ ∀ z ∈ ys, f z = none := by
            rcases h with hx | hy
            · exact Or.inl hx
            · exact Or.inr fun z hz => hy z (List.mem_cons_of_mem y hz)
          rw [List.cons_merge_cons]
          split
          · cases hhead : f x with
            | none =>
                rw [List.filterMap_cons_none hhead,
                  List.filterMap_cons_none hhead, ih (y :: ys) hxs]
            | some b =>
                rw [List.filterMap_cons_some hhead,
                  List.filterMap_cons_some hhead, ih (y :: ys) hxs,
                  List.cons_append]
          · rw [List.filterMap_cons, ihy hys]
            -- the head of the second list overtakes nothing that is read
            rcases h with hx | hy
            · rw [List.filterMap_eq_nil_iff.2 hx, List.filterMap_cons]
              rfl
            · have hhead := hy y List.mem_cons_self
              rw [hhead, List.filterMap_cons_none hhead]

/-- The doc comments of a merged stream are those of its comments. -/
theorem mergeItems_docs (comments : List Comment) (tokens : List Token) :
    (mergeItems comments tokens).filterMap Item.doc?
      = comments.filter (·.isDoc) := by
  have htokens : ∀ item ∈ tokens.map Item.token, Item.doc? item = none := by
    intro item hitem
    obtain ⟨t, -, rfl⟩ := List.mem_map.1 hitem
    rfl
  unfold mergeItems
  rw [filterMap_merge _ _ _ (.inr htokens), List.filterMap_eq_nil_iff.2 htokens,
    List.append_nil, List.filterMap_map, ← List.filterMap_eq_filter]
  rfl

theorem mem_mergeItems_comment {comments : List Comment} {tokens : List Token}
    {c : Comment} :
    .comment c ∈ mergeItems comments tokens ↔ c ∈ comments := by
  unfold mergeItems
  rw [List.mem_merge]
  simp

theorem mem_mergeItems_token {comments : List Comment} {tokens : List Token}
    {t : Token} :
    .token t ∈ mergeItems comments tokens ↔ t ∈ tokens := by
  unfold mergeItems
  rw [List.mem_merge]
  simp

/-- Two ordered lists that never start at one place merge into an ordered
one. -/
theorem mergeItems_increasing {comments : List Comment} {tokens : List Token}
    (hcomments : comments.Pairwise fun a b => a.start < b.start)
    (htokens : tokens.Pairwise fun a b => a.start < b.start)
    (hapart : ∀ c ∈ comments, ∀ t ∈ tokens, c.start ≠ t.start) :
    (mergeItems comments tokens).Pairwise fun a b => a.start < b.start := by
  have hle : (mergeItems comments tokens).Pairwise fun a b =>
      a.start ≤ b.start := by
    have hmerge : (mergeItems comments tokens).Pairwise
        fun a b => decide (a.start ≤ b.start) = true := by
      refine List.pairwise_merge (fun a b c hab hbc => ?_)
        (fun a b => ?_) _ _ ?_ ?_
      · exact decide_eq_true
          (Nat.le_trans (of_decide_eq_true hab) (of_decide_eq_true hbc))
      · simpa using Nat.le_total a.start b.start
      · exact List.pairwise_map.2
          (hcomments.imp fun h => decide_eq_true (Nat.le_of_lt h))
      · exact List.pairwise_map.2
          (htokens.imp fun h => decide_eq_true (Nat.le_of_lt h))
    exact hmerge.imp fun h => of_decide_eq_true h
  have hne : (mergeItems comments tokens).Pairwise fun a b =>
      a.start ≠ b.start := by
    have hperm : (mergeItems comments tokens).Perm
        (comments.map .comment ++ tokens.map .token) := List.merge_perm_append _
    refine (hperm.pairwise_iff fun h => h.symm).2
      (List.pairwise_append.2 ⟨?_, ?_, ?_⟩)
    · exact List.pairwise_map.2 (hcomments.imp fun h => Nat.ne_of_lt h)
    · exact List.pairwise_map.2 (htokens.imp fun h => Nat.ne_of_lt h)
    · intro a ha b hb
      obtain ⟨c, hc, rfl⟩ := List.mem_map.1 ha
      obtain ⟨t, ht, rfl⟩ := List.mem_map.1 hb
      exact hapart c hc t ht
  exact (hle.and hne).imp fun h => Nat.lt_of_le_of_ne h.1 h.2

/-- A token goes to the front if no comment starts before it. -/
theorem mergeItems_token_first {cs : List Comment} {t : Token}
    (h : ∀ c ∈ cs.head?, t.start < c.start) (ts : List Token) :
    mergeItems cs (t :: ts) = .token t :: mergeItems cs ts := by
  cases cs with
  | nil => simp [mergeItems]
  | cons c cs =>
      have hlt : ¬ c.start ≤ t.start := Nat.not_le.2 (h c rfl)
      unfold mergeItems
      rw [List.map_cons, List.map_cons, List.cons_merge_cons]
      exact if_neg fun hle => hlt (of_decide_eq_true hle)

/-- A comment goes to the front if no token starts before it. -/
theorem mergeItems_comment_first {c : Comment} {ts : List Token}
    (h : ∀ t ∈ ts.head?, c.start ≤ t.start) (cs : List Comment) :
    mergeItems (c :: cs) ts = .comment c :: mergeItems cs ts := by
  cases ts with
  | nil => simp [mergeItems]
  | cons t ts =>
      unfold mergeItems
      rw [List.map_cons, List.map_cons, List.cons_merge_cons]
      exact if_pos (decide_eq_true (h t rfl))

/-- Comments, each behind the tokens that start in front of it. -/
def interleaved : List Comment → List Token → List Item
  | [], tokens => tokens.map .token
  | c :: comments, tokens =>
    (tokens.takeWhile fun t => t.start < c.start).map .token
      ++ .comment c :: interleaved comments
        (tokens.dropWhile fun t => t.start < c.start)

/-- Merging puts each comment in its place among the tokens. -/
theorem mergeItems_eq_interleaved (comments : List Comment) :
    ∀ tokens, mergeItems comments tokens = interleaved comments tokens := by
  induction comments with
  | nil =>
      intro tokens
      simp [mergeItems, interleaved]
  | cons c comments ih =>
      intro tokens
      rw [interleaved]
      induction tokens with
      | nil =>
          have hfirst : ∀ t ∈ ([] : List Token).head?,
              c.start ≤ t.start := nofun
          rw [mergeItems_comment_first hfirst, ih]
          rfl
      | cons t tokens iht =>
          by_cases hlt : t.start < c.start
          · have hfirst : ∀ d ∈ (c :: comments).head?, t.start < d.start := by
              intro d hd
              rw [← Option.some.inj hd]
              exact hlt
            rw [List.takeWhile_cons_of_pos (by simpa using hlt),
              List.dropWhile_cons_of_pos (by simpa using hlt),
              mergeItems_token_first hfirst, iht]
            rfl
          · have hfirst : ∀ u ∈ (t :: tokens).head?, c.start ≤ u.start := by
              intro u hu
              rw [← Option.some.inj hu]
              exact Nat.le_of_not_lt hlt
            rw [List.takeWhile_cons_of_neg (by simpa using hlt),
              List.dropWhile_cons_of_neg (by simpa using hlt),
              mergeItems_comment_first hfirst, ih]
            rfl

-- ======================================================== the stream

/-- The stream of a text, without sorting, under rules that list their literals
in the order in which these are tried. -/
theorem Rules.items_eq {rules : Rules}
    (h : rules.orderedLiterals = rules.literals) (text : List Char) :
    rules.items text
      = interleaved
          (rules.comments (.ofText text)
            (rules.spansFrom rules.literals 0 [] none text))
          (rules.tokens text
            (rules.spansFrom rules.literals 0 [] none text)) := by
  rw [Rules.items, mergeItems_eq_interleaved, Rules.spans, h]

/-- The stream of a text under one of the tables, without sorting. -/
theorem Dialect.items_eq (dialect : Dialect) (text : List Char) :
    dialect.rules.items text
      = interleaved
          (dialect.rules.comments (.ofText text)
            (dialect.rules.spansFrom dialect.rules.literals 0 [] none text))
          (dialect.rules.tokens text
            (dialect.rules.spansFrom dialect.rules.literals 0 [] none text)) :=
  Rules.items_eq dialect.orderedLiterals_eq text

/-- The comments of a text. -/
def Rules.commentsOf (rules : Rules) (text : List Char) : List Comment :=
  rules.comments (.ofText text) (rules.spans text)

/-- The doc comments of a text's stream are those of its comments. -/
theorem items_docs (rules : Rules) (text : List Char) :
    (rules.items text).filterMap Item.doc?
      = (rules.commentsOf text).filter (·.isDoc) :=
  mergeItems_docs _ _

/-- The comments of a text lie one behind the other. -/
theorem commentsOf_ordered (rules : Rules) (text : List Char) :
    (∀ c ∈ rules.commentsOf text, c.start < c.stop ∧ c.stop ≤ text.length)
      ∧ (rules.commentsOf text).Pairwise fun c d => c.stop ≤ d.start := by
  obtain ⟨hbounds, hpairs⟩ :=
    (comments_grouped rules (.ofText text) (rules.spans text)).ordered
    0 (spans_tiles rules text)
  refine ⟨fun c hc => ?_, hpairs⟩
  obtain ⟨-, hlt, hstop⟩ := hbounds c hc
  rw [spans_end] at hstop
  exact ⟨hlt, hstop⟩

/-- The comments of a text start one behind the other. -/
theorem commentsOf_increasing (rules : Rules) (text : List Char) :
    (rules.commentsOf text).Pairwise fun c d => c.start < d.start := by
  obtain ⟨hbounds, hpairs⟩ := commentsOf_ordered rules text
  refine hpairs.imp_of_mem fun {c d} hc _ hcd => ?_
  have hlt := (hbounds c hc).1
  omega

/-- Spans without code have no tokens. -/
theorem spans_idle {rules : Rules} (hplain : rules.isPlain = true)
    (text : List Char) :
    ∀ span ∈ rules.spans text, span.Idle → span.tokens = [] := by
  intro span hspan hidle
  unfold Span.tokens
  split
  · next hkind =>
    rcases hidle with ⟨kind, h⟩ | hblank
    · rw [hkind] at h
      cases h
    · exact codeTokens_blank (Text.trimRight_eq_nil.1 hblank) span.start
  · next kind hkind =>
    rcases hidle with ⟨kind', h⟩ | hblank
    · rw [hkind] at h
      cases h
    · -- a literal shows its opener
      obtain ⟨c, hc, hnot⟩ :=
        (Rules.plain_of_isPlain hplain).spansFrom_heads 0 [] none text
        span hspan (by rw [hkind]; exact SpanKind.noConfusion)
      rw [Text.trimRight_eq_nil.1 hblank c (List.mem_of_head? hc)] at hnot
      cases hnot
  · rfl

/-- No token of a text's spans meets one of its comments. -/
theorem spanTokens_apart {rules : Rules} (hplain : rules.isPlain = true)
    (text : List Char) :
    ∀ c ∈ rules.commentsOf text, ∀ t ∈ (rules.spans text).flatMap Span.tokens,
      t.stop ≤ c.start ∨ c.stop ≤ t.start :=
  (comments_grouped rules (.ofText text) (rules.spans text)).apart 0
    (spans_tiles rules text) (spans_idle hplain text)

/-- No token of a text starts inside one of its comments. -/
theorem tokens_apart {rules : Rules} (hplain : rules.isPlain = true)
    (text : List Char) :
    ∀ c ∈ rules.commentsOf text, ∀ t ∈ rules.tokens text (rules.spans text),
      t.start < c.start ∨ c.stop ≤ t.start := by
  intro c hc t ht
  obtain ⟨t₀, ht₀, hstart⟩ := tokens_start_mem ht
  obtain ⟨-, hlt, -⟩ := (spans_tiles rules text).tokens_ordered.1 t₀ ht₀
  rw [← hstart]
  refine (spanTokens_apart hplain text c hc t₀ ht₀).imp_left fun hle => ?_
  omega

/-- The items of a text start one behind the other. -/
theorem items_increasing {rules : Rules} (hplain : rules.isPlain = true)
    (text : List Char) :
    (rules.items text).Pairwise fun a b => a.start < b.start := by
  refine mergeItems_increasing (commentsOf_increasing rules text)
    (List.pairwise_map.1 (tokens_increasing rules text)) fun c hc t ht heq => ?_
  have hlt := ((commentsOf_ordered rules text).1 c hc).1
  rcases tokens_apart hplain text c hc t ht with h | h <;> omega

/-- Of two things in a list whose members lie one behind the other, one lies
behind the other. -/
theorem apart_of_ne {α : Type} {start stop : α → Nat} {xs : List α}
    (hpairs : xs.Pairwise fun a b => stop a ≤ start b) {a b : α} (ha : a ∈ xs)
    (hb : b ∈ xs) (hne : a ≠ b) : stop a ≤ start b ∨ stop b ≤ start a := by
  have hsymm : Std.Symm fun a b => stop a ≤ start b ∨ stop b ≤ start a :=
    ⟨fun _ _ h => h.symm⟩
  have hapart : xs.Pairwise fun a b => stop a ≤ start b ∨ stop b ≤ start a :=
    hpairs.imp .inl
  exact hapart.forall ha hb hne

/-- Of two such things, the one that starts first ends first. -/
theorem stop_le_of_start_lt {α : Type} {start stop : α → Nat} {xs : List α}
    (hpairs : xs.Pairwise fun a b => stop a ≤ start b)
    (hbounds : ∀ x ∈ xs, start x < stop x) {a b : α} (ha : a ∈ xs) (hb : b ∈ xs)
    (hlt : start a < start b) : stop a ≤ start b := by
  have hne : a ≠ b := by
    rintro rfl
    omega
  refine (apart_of_ne hpairs ha hb hne).resolve_right fun hle => ?_
  have hb' := hbounds b hb
  omega

/-- An item ends before the items behind it start, unless it is a directive. -/
theorem items_apart {rules : Rules} (hplain : rules.isPlain = true)
    (text : List Char) :
    (rules.items text).Pairwise fun a b =>
      a.stop ≤ b.start ∨ ∃ t, a = .token t ∧ t.kind = .directive := by
  obtain ⟨hcomments, hordered⟩ := commentsOf_ordered rules text
  have htokens := (spans_tiles rules text).tokens_ordered
  refine (items_increasing hplain text).imp_of_mem fun {a b} ha hb hlt => ?_
  cases a with
  | comment c =>
      have hc : c ∈ rules.commentsOf text := mem_mergeItems_comment.1 ha
      refine .inl ?_
      cases b with
      | comment d =>
          exact stop_le_of_start_lt hordered (fun c hc => (hcomments c hc).1) hc
            (mem_mergeItems_comment.1 hb) hlt
      | token u =>
          refine (tokens_apart hplain text c hc u
            (mem_mergeItems_token.1 hb)).resolve_left ?_
          exact Nat.not_lt.2 (Nat.le_of_lt hlt)
  | token t =>
      rcases tokens_mem (mem_mergeItems_token.1 ha) with hdirective | ht
      · exact .inr ⟨t, rfl, hdirective⟩
      · refine .inl ?_
        cases b with
        | comment d =>
            have hd := mem_mergeItems_comment.1 hb
            refine (spanTokens_apart hplain text d hd t ht).resolve_right
              fun hle => ?_
            have hbounds := (hcomments d hd).1
            simp only [Item.start] at hlt
            omega
        | token u =>
            obtain ⟨u₀, hu₀, hstart⟩ :=
              tokens_start_mem (mem_mergeItems_token.1 hb)
            simp only [Item.start, Item.stop, ← hstart] at hlt ⊢
            exact stop_le_of_start_lt htokens.2
              (fun t ht => (htokens.1 t ht).2.1) ht hu₀ hlt

/-- Tokens in front of a comment in the stream start before it, and tokens
behind it start after it. -/
theorem items_around_comment {rules : Rules} (hplain : rules.isPlain = true)
    {text : List Char} {before after : List Item} {c : Comment}
    (h : rules.items text = before ++ .comment c :: after) :
    c.start < c.stop ∧ (∀ t, .token t ∈ before → t.start < c.start)
      ∧ ∀ t, .token t ∈ after → c.stop ≤ t.start := by
  have hmem : ∀ item, item ∈ before ++ .comment c :: after →
      item ∈ rules.items text :=
    fun item hitem => h ▸ hitem
  have hc : c ∈ rules.commentsOf text :=
    mem_mergeItems_comment.1 (hmem _ (by simp))
  have hpairs := items_increasing hplain text
  rw [h, List.pairwise_append] at hpairs
  obtain ⟨-, hafter, hbefore⟩ := hpairs
  refine ⟨((commentsOf_ordered rules text).1 c hc).1, fun t ht => ?_,
    fun t ht => ?_⟩
  · exact hbefore _ ht (.comment c) List.mem_cons_self
  · have hlt : c.start < t.start := (List.pairwise_cons.1 hafter).1 _ ht
    have htoken : t ∈ rules.tokens text (rules.spans text) :=
      mem_mergeItems_token.1 (hmem (.token t) (by simp [ht]))
    rcases tokens_apart hplain text c hc t htoken with hbad | hgood
    · omega
    · exact hgood

/-- Comments in front of a comment in the stream end before it, and comments
behind it start after it. -/
theorem comments_around_comment {rules : Rules} (hplain : rules.isPlain = true)
    {text : List Char} {before after : List Item} {c : Comment}
    (h : rules.items text = before ++ .comment c :: after) :
    (∀ d, .comment d ∈ before → d.stop ≤ c.start) ∧ ∀ d,
      .comment d ∈ after → c.stop ≤ d.start := by
  have hpairs := items_apart hplain text
  rw [h, List.pairwise_append] at hpairs
  obtain ⟨-, hbehind, hfront⟩ := hpairs
  refine ⟨fun d hd => ?_, fun d hd => ?_⟩
  · exact (hfront _ hd _ List.mem_cons_self).resolve_right (by simp)
  · exact ((List.pairwise_cons.1 hbehind).1 _ hd).resolve_right (by simp)

end Marginalia
