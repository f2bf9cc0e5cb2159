/-
The scopes of a scan follow the braces of its text.

The tracker of a scan reads what the matcher gives it: every brace of the
text, since a line that is passed over keeps its braces, and no brace that
is not there. So what it reports and how deep each record lies is a matter of
the brace sequence, whatever the options, which decide only on comments,
windows and lines passed over.

The brace sequence is taken from the tokens of the text (`bracesOf`). Merging
the comments in leaves it as it is (`items_braces`), and in front of a comment
in the stream are the braces in front of it in the text (`braces_before`).
-/
import Marginalia.Proofs.Association.Placement
import Marginalia.Proofs.Scope.Braces

namespace Marginalia

-- ======================================================== the stream

/-- The braces of a text, literals and directives aside. -/
def Rules.bracesOf (rules : Rules) (text : List Char) : List (Brace × Nat) :=
  (rules.tokens text (rules.spans text)).filterMap Token.brace?

/-- The brace that an item is. -/
def Item.brace? : Item → Option (Brace × Nat)
  | .comment _ => none
  | .token t => t.brace?

theorem items_braces (rules : Rules) (text : List Char) :
    (rules.items text).filterMap Item.brace? = rules.bracesOf text := by
  have hcomments : ∀ comments : List Comment,
      ∀ item ∈ comments.map Item.comment, Item.brace? item = none := by
    intro comments item hitem
    obtain ⟨c, -, rfl⟩ := List.mem_map.1 hitem
    rfl
  unfold Rules.items mergeItems
  rw [filterMap_merge _ _ _ (.inl (hcomments _)),
    List.filterMap_eq_nil_iff.2 (hcomments _), List.nil_append,
    List.filterMap_map]
  rfl

theorem Token.brace?_offset {token : Token} {brace : Brace × Nat}
    (h : token.brace? = some brace) :
    brace.2 = token.start := by
  unfold Token.brace? at h
  split at h
  · cases h
  · cases h
  · split at h
    · injection h with h
      rw [← h]
    · split at h
      · injection h with h
        rw [← h]
      · cases h

/-- The braces in front of a comment in the stream are those in front of it in
the text. -/
theorem braces_before {rules : Rules} (hplain : rules.isPlain = true)
    {text : List Char} {before after : List Item} {c : Comment}
    (h : rules.items text = before ++ .comment c :: after) :
    before.filterMap Item.brace?
      = (rules.bracesOf text).filter (·.2 < c.start) := by
  obtain ⟨hlt, hbefore, hafter⟩ := items_around_comment hplain h
  have hoffset : ∀ items : List Item, ∀ brace ∈ items.filterMap Item.brace?,
      ∃ t, .token t ∈ items ∧ brace.2 = t.start := by
    intro items brace hbrace
    obtain ⟨item, hitem, hsome⟩ := List.mem_filterMap.1 hbrace
    cases item with
    | comment c => cases hsome
    | token t => exact ⟨t, hitem, Token.brace?_offset hsome⟩
  have hfront : (before.filterMap Item.brace?).filter (·.2 < c.start)
      = before.filterMap Item.brace? := by
    refine List.filter_eq_self.2 fun brace hbrace => ?_
    obtain ⟨t, ht, hstart⟩ := hoffset before brace hbrace
    exact decide_eq_true (hstart ▸ hbefore t ht)
  have hback : (after.filterMap Item.brace?).filter (·.2 < c.start) = [] := by
    refine List.filter_eq_nil_iff.2 fun brace hbrace hlow => ?_
    obtain ⟨t, ht, hstart⟩ := hoffset after brace hbrace
    have hle := hafter t ht
    have hlow := of_decide_eq_true hlow
    omega
  rw [← items_braces, h, List.filterMap_append, List.filterMap_cons,
    List.filter_append, hfront]
  show _ = _ ++ (after.filterMap Item.brace?).filter (·.2 < c.start)
  rw [hback, List.append_nil]

-- =========================================================== the run

/-- A token that is passed over is no brace. -/
theorem ignores_brace {reading : Reading} {token : Token}
    (h : Matcher.ignores reading token = true) : token.brace? = none := by
  simp only [Matcher.ignores, Bool.and_eq_true, bne_iff_ne] at h
  unfold Token.brace?
  split
  · rfl
  · rfl
  · rw [if_neg h.1.1, if_neg h.1.2]

namespace Tracker

/-- An item counts as the brace that it is. -/
theorem read_counts (reading : Reading) (t : Tracker) (item : Item) :
    CountsFrom reading.scopeLines item.brace?.toList t
      (t.read reading item).1 := by
  cases item with
  | comment c =>
      simp only [read]
      split
      · exact breakLine_counts reading.rules reading.scopeLines t c.start none
      · exact .none rfl rfl
  | token token =>
      simp only [read]
      split
      · next hignores =>
        show CountsFrom _ token.brace?.toList t t
        rw [ignores_brace hignores]
        exact .none rfl rfl
      · exact feed_counts reading.rules reading.scopeLines token t

/-- A stretch of the stream counts as its braces. -/
theorem readAll_counts (reading : Reading) (items : List Item) :
    ∀ t : Tracker,
      CountsFrom reading.scopeLines (items.filterMap Item.brace?) t
        (t.readAll reading items) := by
  induction items with
  | nil =>
      intro t
      exact .none rfl rfl
  | cons item items ih =>
      intro t
      have hcons : (item :: items).filterMap Item.brace?
          = item.brace?.toList ++ items.filterMap Item.brace? := by
        rw [List.filterMap_cons]
        cases item.brace? with
        | none => rfl
        | some brace => rfl
      rw [hcons]
      exact (read_counts reading t item).trans (ih _)

end Tracker

/-- What a run reports of scopes: the stray braces of its stream, and how many
are left open. -/
theorem run_diagnostics (reading : Reading) (items : List Item) :
    ∃ last, (Matcher.run reading {} items).matcher.tracker.diagnostics
        = (strayBraces 0 (items.filterMap Item.brace?)).map
          (.stray reading.scopeLines) ++ last
      ∧ ReportsOpen reading.scopeLines reading.text.length
        (openBraces 0 (items.filterMap Item.brace?)) last := by
  have hcounts := (Tracker.readAll_counts reading items {}).trans
    (Tracker.flush_counts reading.rules reading.scopeLines _)
  rw [List.append_nil] at hcounts
  obtain ⟨last, hlast, hreports⟩ :=
    Tracker.close_reports reading.scopeLines reading.text.length
    (((({} : Tracker).readAll reading items).flush reading.rules
      reading.scopeLines).1)
  refine ⟨last, ?_, ?_⟩
  · rw [run_tracker, hlast, hcounts.diagnostics]
    rfl
  · rw [hcounts.levels] at hreports
    exact hreports

-- ========================================================== the scan

/-- Whether the problem is one of scopes. -/
def Diagnostic.isScope (d : Diagnostic) : Bool :=
  match d.problem with
  | .unclosed _ => false
  | .strayBrace => true
  | .openScopes .. => true

theorem ReportsOpen.isScope {lines : Text.Lines} {textEnd : Int} {count : Nat}
    {last : List Diagnostic} (h : ReportsOpen lines textEnd count last) :
    ∀ d ∈ last, d.isScope = true := by
  intro d hd
  cases h with
  | none => cases hd
  | some =>
      rw [List.mem_singleton.1 hd]
      rfl

/-- What is reported says how many scopes are open. -/
theorem ReportsOpen.message {lines : Text.Lines} {textEnd : Int} {count : Nat}
    {last : List Diagnostic} (h : ReportsOpen lines textEnd count last) :
    ∀ d ∈ last, ∃ place, d.problem.message
      = toString count ++ " scope(s) still open at end of input (offset "
        ++ place := by
  have hparts : ∀ a b c d e f : String,
      a ++ b ++ c ++ d ++ e ++ f = a ++ b ++ (c ++ d ++ e ++ f) := by
    intro a b c d e f
    simp only [String.append_assoc]
  intro d hd
  cases h with
  | none => cases hd
  | some =>
      rw [List.mem_singleton.1 hd]
      exact ⟨_, hparts _ _ _ _ _ _⟩

theorem ReportsOpen.eq_nil_iff {lines : Text.Lines} {textEnd : Int}
    {count : Nat} {last : List Diagnostic}
    (h : ReportsOpen lines textEnd count last) :
    last = [] ↔ count = 0 := by
  cases h with
  | none closed => exact ⟨fun _ => closed, fun _ => rfl⟩
  | some left =>
      constructor
      · intro hnil
        cases hnil
      · intro hzero
        omega

/-- The problems of spans are none of scopes. -/
theorem Span.diagnostics_isScope (lines : Text.Lines) (spans : List Span) :
    (Span.diagnostics lines spans).filter (·.isScope) = [] := by
  refine List.filter_eq_nil_iff.2 fun d hd => ?_
  obtain ⟨span, -, hsome⟩ := List.mem_filterMap.1 hd
  obtain ⟨what, -, rfl⟩ := Option.map_eq_some_iff.1 hsome
  exact Bool.false_ne_true

/-- The scope diagnostics of an index, by the braces of its text. -/
theorem index_scope_diagnostics (rules : Rules) (options : ScanOptions)
    (text : List Char) :
    ∃ last, (rules.index options text).result.diagnostics.filter (·.isScope)
        = (strayBraces 0 (rules.bracesOf text)).map (.stray (.ofText text))
          ++ last
      ∧ ReportsOpen (.ofText text) text.length
        (openBraces 0 (rules.bracesOf text)) last := by
  obtain ⟨last, hdiagnostics, hreports⟩ :=
    run_diagnostics (rules.reading options text) (rules.items text)
  rw [items_braces] at hdiagnostics hreports
  refine ⟨last, ?_, hreports⟩
  have hscopes : ∀ d ∈ (strayBraces 0 (rules.bracesOf text)).map
      (.stray (rules.reading options text).scopeLines) ++ last,
        d.isScope = true := by
    intro d hd
    rcases List.mem_append.1 hd with hd | hd
    · obtain ⟨offset, -, rfl⟩ := List.mem_map.1 hd
      rfl
    · exact hreports.isScope d hd
  rw [index_diagnostics, List.filter_append, Span.diagnostics_isScope,
    List.nil_append, hdiagnostics, List.filter_eq_self.2 hscopes]
  rfl

/-- A record lies in the file and in the braces open at its comment. -/
theorem index_depths {rules : Rules} (hplain : rules.isPlain = true)
    (options : ScanOptions) (text : List Char) :
    ∀ record ∈ (rules.index options text).result.records,
      record.depth
        = 1 + openBraces 0
          ((rules.bracesOf text).filter (·.2 < record.comment.start)) := by
  intro record hmem
  rw [index_records] at hmem
  obtain ⟨before, e, hsplit, -, htracker, hbound⟩ :=
    run_at_comment (pathLaw (rules.reading options text)).windowLaw _ hmem
  have hcounts :=
    (Tracker.readAll_counts (rules.reading options text) before {}).trans
    (Tracker.breakLine_counts (rules.reading options text).rules _ _
      e.comment.start none)
  rw [List.append_nil, braces_before hplain hsplit] at hcounts
  rw [Matcher.scopesAt, consume_tracker] at htracker
  rw [hbound.depth, hbound.comment, Tracker.depth, htracker, Nat.add_comm]
  exact congrArg (1 + ·) hcounts.levels

/-- Options do not change the braces of a text. -/
theorem withOptions_braces {rules applied : Rules} {options : ScanOptions}
    (h : rules.withOptions options = .ok applied) (text : List Char) :
    applied.bracesOf text = rules.bracesOf text := by
  obtain ⟨markers, rfl⟩ := withOptions_eq h
  unfold Rules.bracesOf
  rw [Rules.spans_markers]
  rfl

/-- Whatever its options, a scan reports each brace of its text that closes
nothing, in order, and then how many are left open if any are. It reports
nothing of scopes exactly when braces are balanced, and every record lies as
deep as the braces in front of its comment say. -/
theorem scopes_follow_braces (dialect : Dialect) (settings : ScanSettings)
    (options : ScanOptions) (hcheck : settings.check = .ok options)
    (text : List Char) :
    ∃ result last, dialect.rules.scan options text = .ok result
      ∧ result.diagnostics.filter (·.isScope)
        = (strayBraces 0 (dialect.rules.bracesOf text)).map
          (.stray (.ofText text)) ++ last
      ∧ ReportsOpen (.ofText text) text.length
        (openBraces 0 (dialect.rules.bracesOf text)) last
      ∧ (∀ d ∈ last, ∃ place, d.problem.message
        = toString (openBraces 0 (dialect.rules.bracesOf text))
          ++ " scope(s) still open at end of input (offset " ++ place)
      ∧ (result.diagnostics.filter (·.isScope) = []
        ↔ Balanced (dialect.rules.bracesOf text))
      ∧ ∀ record ∈ result.records, record.depth
        = 1 + openBraces 0
          ((dialect.rules.bracesOf text).filter
            (·.2 < record.comment.start)) := by
  obtain ⟨rules, hrules, hscan⟩ := dialect.scan_index hcheck text
  obtain ⟨last, hdiagnostics, hreports⟩ :=
    index_scope_diagnostics rules options text
  have hdepths := index_depths (dialect.plain hrules) options text
  rw [withOptions_braces hrules] at hdiagnostics hreports
  simp only [withOptions_braces hrules] at hdepths
  refine ⟨_, last, hscan, hdiagnostics, hreports, hreports.message, ?_, hdepths⟩
  rw [hdiagnostics, List.append_eq_nil_iff, List.map_eq_nil_iff,
    hreports.eq_nil_iff, balanced_iff]

/-- Braces in a directive, in code and in a string, and a comment. -/
def bracesPastDirective : List Char := "#\x7b\n\x7d\x7b\"\x7b\"\n///d".toList

/-- A brace in a directive and one in a string do not count; of the two that do,
the first is stray and the second is open at the comment and at the end. -/
theorem scopes_follow_braces_past_directive :
    ({} : ScanSettings).check = .ok {}
      ∧ ∃ result last, Dialect.c.rules.scan {} bracesPastDirective = .ok result
        ∧ result.diagnostics.filter (·.isScope) = ⟨.strayBrace, 3, 2⟩ :: last
        ∧ ReportsOpen (.ofText bracesPastDirective) 13 1 last
        ∧ ¬ Balanced (Dialect.c.rules.bracesOf bracesPastDirective)
        ∧ ∃ record ∈ result.records,
          record.comment.start = 9 ∧ record.depth = 2 := by
  have hcheck : ({} : ScanSettings).check = .ok {} := rfl
  have hbraces : Dialect.c.rules.bracesOf bracesPastDirective
      = [(.closing, 3), (.opening, 4)] := by
    rw [Rules.bracesOf, Dialect.spans_eq]
    decide +kernel
  obtain ⟨result, last, hscan, hdiagnostics, hreports, -, hbalanced, hdepths⟩ :=
    scopes_follow_braces .c {} {} hcheck bracesPastDirective
  rw [hbraces] at hdiagnostics hreports hdepths
  have hstarts : (result.records.map (·.comment)).map (·.start) = [9] := by
    obtain ⟨rules, found, hrules, hfound, hrecords⟩ :=
      Dialect.c.scan_ok hcheck bracesPastDirective
    obtain rfl := Except.ok.inj (hscan.symm.trans hfound)
    obtain rfl : Dialect.c.rules = rules := Except.ok.inj hrules
    rw [hrecords, run_comments, Dialect.items_eq]
    decide +kernel
  rw [List.map_map] at hstarts
  obtain ⟨record, hmem, hstart⟩ :=
    List.mem_map.1 (hstarts.symm ▸ List.mem_singleton_self 9)
  have hstart : record.comment.start = 9 := hstart
  refine ⟨hcheck, result, last, hscan, ?_, hreports, fun h => ?_, record, hmem,
    hstart, ?_⟩
  · rw [hdiagnostics]
    rfl
  · rw [← hbalanced, hdiagnostics] at h
    cases h
  · rw [hdepths record hmem, hstart]
    rfl

end Marginalia
