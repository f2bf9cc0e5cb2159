/-
Statement ends behind a doc comment.

A window closes with the statement behind its comment, so the end of a
statement at the comment's own scopes closes it, with a declaration or
without. Only an end in front of which nothing was read behind the comment is
passed over: that of a statement which began before the comment, or a
semicolon that is itself the first token behind it. So in the stretch between
a bound comment and what binds it, no token is read in front of the end of a
statement (`settles_split`).
-/
import Marginalia.Proofs.Association.BackToBack
import Marginalia.Proofs.Association.Ceiling

namespace Marginalia

-- ================================================ ends of statements

namespace Tracker

/-- An item ends a statement that has the given number of scopes around it. -/
def EndsStatement (reading : Reading) (t : Tracker) (depth : Nat)
    (item : Item) : Prop :=
  ∃ site, .statement depth site ∈ (t.read reading item).2

/-- A semicolon outside all parentheses, with the given number of scopes
around it. -/
structure SemicolonAt (reading : Reading) (t : Tracker) (depth : Nat)
    (token : Token) : Prop where
  text : token.text = ";"
  isCode : token.kind ≠ .literal ∧ token.kind ≠ .directive
  isRead : Matcher.ignores reading token = false
  parens :
    (t.breakLine reading.rules reading.scopeLines token.start
      (some token.text)).1.parens
    = 0
  depth : t.depth = depth

/-- A semicolon outside all parentheses ends a statement. -/
theorem feedToken_semicolon {rules : Rules} {lines : Text.Lines} {t : Tracker}
    {token : Token} (htext : token.text = ";")
    (hcode : token.kind ≠ .literal ∧ token.kind ≠ .directive)
    (hparens : t.parens = 0) :
    ∃ site, .statement t.depth site
      ∈ (t.feedToken rules lines token).events := by
  unfold feedToken
  split
  · next hkind => exact absurd hkind hcode.2
  · next hkind => exact absurd hkind hcode.1
  · refine ⟨({ t with previous := some token } : Tracker).declared? rules lines
      .statement, ?_⟩
    simp [feedCode, htext, hparens, endStatement_eq, Tracker.depth]

theorem SemicolonAt.endsStatement {reading : Reading} {t : Tracker}
    {depth : Nat} {token : Token} (h : SemicolonAt reading t depth token) :
    t.EndsStatement reading depth (.token token) := by
  obtain ⟨site, hmem⟩ := feedToken_semicolon h.text h.isCode h.parens
  rw [Tracker.depth, breakLine_levels, ← Tracker.depth, h.depth] at hmem
  refine ⟨site, ?_⟩
  simp only [Tracker.read, h.isRead, Bool.false_eq_true, if_false, feed_eq]
  exact List.mem_append_right _ hmem

/-- What the next item does to the scopes, or the end of the text. -/
def nextEvents (reading : Reading) (t : Tracker) : List Item → List ScopeEvent
  | [] => (t.flush reading.rules reading.scopeLines).2
  | item :: _ => (t.read reading item).2

end Tracker

/-- Events that tell of a declaration with the given number of scopes around
it, at the end of its statement or with its body. -/
def DeclaresAt (events : List ScopeEvent) (depth : Nat) (site : Site) : Prop :=
  .statement depth (some site) ∈ events
    ∨ ∃ nested, .push depth (.declaration site) nested ∈ events

theorem DeclaresAt.of_decide {events : List ScopeEvent} {w : Window}
    {site : Site} (h : events.findSome? w.decide = some (some site)) :
    DeclaresAt events w.depth site := by
  obtain ⟨event, hmem, hdecide⟩ := List.exists_of_findSome?_eq_some h
  rcases Window.decide_site hdecide with rfl | ⟨nested, rfl⟩
  · exact .inl hmem
  · exact .inr ⟨nested, hmem⟩

-- =========================================================== windows

theorem Window.meets_tokens (reading : Reading) (w : Window) (item : Item) :
    (w.meets reading item).tokens = w.tokens := by
  cases item with
  | comment c => rfl
  | token t =>
      simp only [Window.meets]
      split <;> rfl

/-- A window that stays open at the end of a statement has counted no token. -/
theorem Window.tokens_of_endsStatement {reading : Reading} {w : Window}
    {t : Tracker} {item : Item}
    (hopen : (t.read reading item).2.findSome? (w.meets reading item).decide
      = none)
    (hends : t.EndsStatement reading w.depth item) : w.tokens = 0 := by
  obtain ⟨site, hmem⟩ := hends
  have hstays := List.findSome?_eq_none_iff.1 hopen _ hmem
  rw [decide, meets_depth, meets_tokens, beq_self_eq_true, Bool.true_and]
    at hstays
  split at hstays
  · cases hstays
  · next hnone =>
    rw [decide_eq_true_eq] at hnone
    omega

/-- What a window comes to is declared behind a stretch in which no token is
counted in front of the end of a statement at the window's depth. -/
theorem settles_split {reading : Reading} (items : List Item) :
    ∀ (w : Window) (t : Tracker) {site : Site},
      w.settles reading t items = some site →
      ∃ between after, items = between ++ after
        ∧ DeclaresAt ((t.readAll reading between).nextEvents reading after)
          w.depth site
        ∧ ∀ front item back, between = front ++ item :: back →
          (t.readAll reading front).EndsStatement reading w.depth item →
          w.tokens + readCount reading front = 0 := by
  induction items with
  | nil =>
      intro w t site h
      rw [Window.settles, Option.join_eq_some_iff] at h
      refine ⟨[], [], rfl, .of_decide h, fun front item back hsplit => ?_⟩
      simp at hsplit
  | cons item items ih =>
      intro w t site h
      rw [Window.settles] at h
      split at h
      · next target hdecide =>
        rw [h] at hdecide
        refine ⟨[], item :: items, rfl, ?_, fun front item back hsplit => ?_⟩
        · have hdeclares := DeclaresAt.of_decide hdecide
          rw [Window.meets_depth] at hdeclares
          exact hdeclares
        · simp at hsplit
      · next hopen =>
        obtain ⟨between, after, rfl, hdeclares, hends⟩ := ih _ _ h
        rw [Window.passes_depth] at hdeclares hends
        refine ⟨item :: between, after, rfl, hdeclares, ?_⟩
        intro front other back hsplit hend
        rcases List.cons_eq_append_iff.1 hsplit with ⟨rfl, hcons⟩ | ⟨front,
          rfl, hrest⟩
        · obtain ⟨rfl, -⟩ := List.cons.inj hcons
          exact Window.tokens_of_endsStatement hopen hend
        · have hcount := hends front other back hrest hend
          rw [Window.passes_tokens, Nat.add_assoc, readCount, readCount,
            ← List.countP_append] at hcount
          exact hcount

-- ============================================================= scans

/-- Between an outer doc comment and what binds it, a statement of the
comment's scopes ends only where no token behind the comment was read before,
so a semicolon that ends one is the first token behind the comment. -/
theorem bound_comment_passes_only_first_terminator (dialect : Dialect)
    (settings : ScanSettings) (options : ScanOptions)
    (hcheck : settings.check = .ok options) (text : List Char) :
    ∃ rules result, dialect.rules.withOptions options = .ok rules
      ∧ dialect.rules.scan options text = .ok result
      ∧ ∀ record ∈ result.records, record.comment.placement = .outer →
        ∀ site, record.target = some site → ∃ before between after scopes,
          rules.items text = before ++ .comment record.comment
            :: (between ++ after)
            ∧ scopes
              = (Matcher.consume (rules.reading options text) {}
                before).matcher.scopesAt
              (rules.reading options text) record.comment
            ∧ DeclaresAt
              ((scopes.readAll (rules.reading options text) between).nextEvents
              (rules.reading options text) after) record.depth site
            ∧ (∀ front item back, between = front ++ item :: back →
              (scopes.readAll (rules.reading options text) front).EndsStatement
                (rules.reading options text) record.depth item →
              readCount (rules.reading options text) front = 0)
            ∧ ∀ front token back, between = front ++ .token token :: back →
              (scopes.readAll (rules.reading options text) front).SemicolonAt
                (rules.reading options text) record.depth token →
              readCount (rules.reading options text) front = 0 := by
  obtain ⟨rules, result, hrules, hscan, hrecords⟩ := dialect.scan_ok hcheck text
  refine ⟨rules, result, hrules, hscan, ?_⟩
  rw [hrecords]
  intro record hmem houter site hsite
  obtain ⟨before, e, hsplit, -, htracker, hbound⟩ :=
    run_at_comment (settledLaw (rules.reading options text)) _ hmem
  have hsettled := hbound.outer (hbound.comment ▸ houter) site hsite
  obtain ⟨between, after, hrest, hdeclares, hends⟩ :=
    settles_split e.rest e.window e.tracker hsettled
  rw [hrest, ← hbound.comment] at hsplit
  have hdepth : e.window.depth = record.depth := hbound.depth.symm
  rw [hdepth] at hdeclares hends
  have hcount : ∀ front item back, between = front ++ item :: back →
      (e.tracker.readAll (rules.reading options text) front).EndsStatement
        (rules.reading options text) record.depth item →
      readCount (rules.reading options text) front = 0 := by
    intro front item back hitem hend
    have hzero := hends front item back hitem hend
    omega
  refine ⟨before, between, after, e.tracker, hsplit, ?_, hdeclares, hcount, ?_⟩
  · rw [htracker, hbound.comment]
  · exact fun front token back hitem hsemicolon =>
      hcount front (.token token) back hitem hsemicolon.endsStatement

/-- A documented prototype behind another statement. -/
def prototypeBehindStatement : List Char := "x;\n///a\nint f();".toList

/-- A prototype is bound by its own semicolon, behind another statement's. -/
theorem prototype_passes_only_first_terminator :
    ({} : ScanSettings).check = .ok {}
      ∧ ∃ result record site before between after scopes,
        Dialect.java.rules.scan {} prototypeBehindStatement = .ok result
          ∧ record ∈ result.records ∧ record.comment.placement = .outer
          ∧ record.target = some site ∧ site.name = "f"
          ∧ Dialect.java.rules.items prototypeBehindStatement
            = before ++ .comment record.comment :: (between ++ after)
          ∧ DeclaresAt ((Tracker.readAll
              (Dialect.java.rules.reading {} prototypeBehindStatement) scopes
              between).nextEvents
                (Dialect.java.rules.reading {} prototypeBehindStatement)
              after) record.depth site
          ∧ ∀ front token back, between = front ++ .token token :: back →
            (scopes.readAll
              (Dialect.java.rules.reading {} prototypeBehindStatement)
              front).SemicolonAt
                (Dialect.java.rules.reading {} prototypeBehindStatement)
              record.depth token →
            readCount (Dialect.java.rules.reading {} prototypeBehindStatement)
              front = 0 := by
  obtain ⟨rules, result, hrules, hscan, hpasses⟩ :=
    bound_comment_passes_only_first_terminator .java {} {} rfl
      prototypeBehindStatement
  have happlied : Dialect.java.rules = rules := Except.ok.inj hrules
  rw [← happlied] at hrules hpasses
  have htargets : result.records.map
      (fun record => (record.comment.placement, record.target))
      = [(.outer, some ⟨.function, "f", 8, 3, [⟨.file, ""⟩]⟩)] := by
    rw [scan_records hrules hscan, Dialect.items_eq]
    decide +kernel
  obtain ⟨record, hmem, hrecord⟩ :=
    List.mem_map.1 (htargets.symm ▸ List.mem_singleton_self _)
  obtain ⟨hplace, htarget⟩ := Prod.mk.inj hrecord
  obtain ⟨before, between, after, scopes, hitems, -, hdeclares, -,
      hsemicolons⟩ :=
    hpasses record hmem hplace _ htarget
  exact ⟨rfl, result, record, _, before, between, after, scopes, hscan, hmem,
    hplace, htarget, rfl, hitems, hdeclares, hsemicolons⟩

/-- A comment with a semicolon below it. -/
def semicolonBelowComment : List Char := "///a\n;class X\x7b\x7d".toList

/-- A semicolon right behind a comment is passed over, and the comment is bound
to the statement after it. -/
theorem first_semicolon_passed_over :
    (Dialect.java.rules.scan {} semicolonBelowComment).toOption.map
      (fun result =>
      result.records.map fun record =>
        (record.comment.placement, record.comment.stop,
          record.target.map fun site => (site.name, site.start)))
      = some [(.outer, 4, some ("X", 6))] := by
  have hscan : Dialect.java.rules.scan {} semicolonBelowComment
      = .ok (Dialect.java.rules.index {} semicolonBelowComment).result := rfl
  simp only [hscan, Except.toOption, Option.map_some, index_records,
    Dialect.items_eq]
  decide +kernel

end Marginalia
