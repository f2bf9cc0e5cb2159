/-
What stands behind an outer doc comment, and what does not.

A header goes on across comments, so the statement that closes a comment's
window may have begun before the comment. An outer comment is bound to what
follows it exactly when the declaration does not start at a token of the header
that was being read at the comment (`outer_records_follow_unless_in_header`);
where it does, the comment stands inside the declaration, as one in a parameter
list may (`parameter_comment_documents_function`). Only a comment for which
another one is waiting is kept from such a header.
-/
import Marginalia.Proofs.Association.Account
import Marginalia.Proofs.Association.Binding
import Marginalia.Proofs.Association.Prefix
import Marginalia.Proofs.Scope.Origin
import Mathlib.Data.List.Nodup

namespace Marginalia

-- ===================================================== header tokens

/-- Every token the tracker holds came with the stream. -/
theorem readAll_holds (reading : Reading) {P : Token → Prop} (items : List Item)
    (tracker : Tracker) (h : HoldsAbove P [] tracker)
    (hitems : ∀ t, .token t ∈ items → P t) :
    HoldsAbove P [] (tracker.readAll reading items) :=
  readAll_keeps reading items (fun _ ht => ht.cleared) tracker
    (fun token hmem _ ht =>
      (Tracker.feedToken_step ..).holdsAbove (hitems token hmem)
        List.nil_suffix ht) h

/-- The header at a comment has only tokens of the stream in front of it. -/
theorem scopesAt_header {reading : Reading} {before : List Item} {c : Comment}
    {t : Token} (h :
      t
        ∈ ((Matcher.consume reading {} before).matcher.scopesAt reading
          c).header) :
    .token t ∈ before := by
  have hholds :=
    readAll_holds reading before {} (HoldsAbove.empty _) fun t ht => ht
  rw [Matcher.scopesAt, consume_tracker, Tracker.breakBefore] at h
  rcases Tracker.breakLine_cases reading.rules reading.scopeLines
    ((({} : Matcher).tracker).readAll reading before) c.start none with hb | hb
  · rw [hb] at h
    exact hholds.1 t h
  · rw [hb] at h
    cases h

/-- A waiting comment is bound to a declaration that starts at a token of the
header it stands in, or at a token behind it. -/
theorem originLaw (reading : Reading) :
    BindingLaw reading
      (fun e t items => (∀ item ∈ items, item ∈ e.rest)
        ∧ HoldsAbove (fun t => t ∈ e.tracker.header ∨ .token t ∈ e.rest)
          e.tracker.levels t)
      (fun e site => ∃ t,
        (t ∈ e.tracker.header ∨ .token t ∈ e.rest) ∧ t.start = site.start) where
  opens e :=
    ⟨fun _ h => h, fun _ ht => .inl ht, [], rfl,
      fun level hl => absurd hl (by simp)⟩
  skip e t item items h := ⟨fun i hi => h.1 i (List.mem_cons_of_mem _ hi), h.2⟩
  breaks e t items h := ⟨h.1, h.2.cleared⟩
  feeds e t token items fed h hstep _ hbelow :=
    ⟨fun i hi => h.1 i (List.mem_cons_of_mem _ hi),
      hstep.holdsAbove (.inr (h.1 _ List.mem_cons_self)) hbelow h.2⟩
  declares e t items terminator site h _ hdeclared := by
    obtain ⟨token, hmem, hstart⟩ := Tracker.declared?_start hdeclared
    exact ⟨token, h.2.1 token hmem, hstart⟩

-- =============================================== another's statement

/-- Another comment waits, and the statement behind it has begun and goes on
across this one. -/
def Matcher.Interrupted (reading : Reading) (m : Matcher) (c : Comment) :
    Prop :=
  ∃ w, m.window = some w ∧ 0 < w.tokens
    ∧ (m.tracker.breakBefore reading.rules reading.scopeLines
      c.start).2.findSome? w.decide
      = none

/-- An outer comment inside another's statement is held without a
declaration. -/
theorem step_interrupted {reading : Reading} {m : Matcher} {c : Comment}
    (hdoc : c.isDoc = true) (houter : c.placement = .outer)
    (h : m.Interrupted reading c) :
    ⟨c, none, (m.scopesAt reading c).depth⟩
      ∈ (m.step reading (.comment c)).matcher.held := by
  obtain ⟨tracker, window, held, lastEnd⟩ := m
  obtain ⟨w, hw, htokens, hdecide⟩ := h
  have hw : window = some w := hw
  subst hw
  have hbusy : (w.tokens == 0) = false := by
    rw [beq_eq_false_iff_ne]
    omega
  simp [Matcher.step, Matcher.onComment, Matcher.detach, hbusy,
    Matched.andThen, hdoc, Matcher.onDoc, Matcher.heed, hdecide, houter,
    Matcher.onOuter, htokens, Matcher.emit, Matcher.scopesAt]

/-- The record of an outer comment inside another's statement. -/
theorem run_interrupted {reading : Reading} {before after : List Item}
    {c : Comment} (hdoc : c.isDoc = true) (houter : c.placement = .outer)
    (h : (Matcher.consume reading {} before).matcher.Interrupted reading c) :
    ∃ depth, ⟨c, none, depth⟩
      ∈ (Matcher.run reading {} (before ++ .comment c :: after)).records := by
  refine ⟨((Matcher.consume reading {} before).matcher.scopesAt reading
    c).depth, ?_⟩
  rw [run_append]
  refine List.mem_append_right _ (List.mem_append_right _ ?_)
  exact run_held after _ (step_interrupted hdoc houter h)

-- ========================================================= following

/-- An outer comment's record against the header that is read at the comment:
what it documents starts behind the comment unless it starts in that header,
and then in front of the comment. -/
structure FollowsUnlessIn (header : List Token) (record : Record)
    (site : Site) : Prop where
  behind : record.comment.stop ≤ site.start ↔ ∀ t ∈ header, t.start ≠ site.start
  apart : site.start < record.comment.start ∨ record.comment.stop ≤ site.start

/-- Tokens of the header stand in front of the comment and those of the rest
behind it, so where the declaration starts says which of them it starts at. -/
theorem FollowsUnlessIn.of_origin {header : List Token} {rest : List Item}
    {record : Record} {site : Site} {t : Token}
    (hlt : record.comment.start < record.comment.stop)
    (hheader : ∀ t ∈ header, t.start < record.comment.start)
    (hrest : ∀ t, .token t ∈ rest → record.comment.stop ≤ t.start)
    (horigin : t ∈ header ∨ .token t ∈ rest) (hstart : t.start = site.start) :
    FollowsUnlessIn header record site := by
  rcases horigin with horigin | horigin
  · have hearly := hheader t horigin
    rw [hstart] at hearly
    exact ⟨⟨fun hle => absurd hle (by omega),
      fun hnone => absurd hstart (hnone t horigin)⟩, .inl hearly⟩
  · have hlate := hrest t horigin
    rw [hstart] at hlate
    refine ⟨⟨fun _ t ht heq => ?_, fun _ => hlate⟩, .inr hlate⟩
    have hearly := hheader t ht
    omega

/-- The records of a text are those of doc comments, one for each. -/
theorem run_records_once (rules : Rules) (options : ScanOptions)
    (text : List Char) :
    ∀ record
      ∈ (Matcher.run (rules.reading options text) {}
        (rules.items text)).records,
      record.comment.isDoc = true
        ∧ ∀ other
          ∈ (Matcher.run (rules.reading options text) {}
            (rules.items text)).records,
          record.comment = other.comment → record = other := by
  intro record hmem
  have hdocs := run_comments (rules.reading options text) {} (rules.items text)
  rw [items_docs] at hdocs
  refine ⟨?_, fun other hother => ?_⟩
  · have hcomment := List.mem_map_of_mem (f := (·.comment)) hmem
    rw [hdocs] at hcomment
    exact (List.mem_filter.1 hcomment).2
  · have hnodup : ((Matcher.run (rules.reading options text) {}
        (rules.items text)).records.map (·.comment)).Nodup := by
      rw [hdocs]
      refine ((commentsOf_increasing rules text).filter _).imp fun hlt heq => ?_
      exact absurd (heq ▸ hlt) (Nat.lt_irrefl _)
    exact List.inj_on_of_nodup_map hnodup hmem hother

/-- In a scan every outer doc comment has its record, and is bound to what
follows it unless the declaration starts in the header that is being read at
the comment; inside the statement of another comment that waits, it is bound
to nothing. -/
theorem outer_records_follow_unless_in_header (dialect : Dialect)
    (settings : ScanSettings) (options : ScanOptions)
    (hcheck : settings.check = .ok options) (text : List Char) :
    ∃ rules result, dialect.rules.withOptions options = .ok rules
      ∧ dialect.rules.scan options text = .ok result
      ∧ result.records.map (·.comment) = (rules.items text).filterMap Item.doc?
      ∧ ∀ record ∈ result.records,
        record.comment.placement = .outer → ∃ before after m,
        rules.items text = before ++ .comment record.comment :: after
          ∧ m = (Matcher.consume (rules.reading options text) {} before).matcher
          ∧ (∀ site, record.target = some site → FollowsUnlessIn
            (m.scopesAt (rules.reading options text) record.comment).header
              record site)
          ∧ (m.Interrupted (rules.reading options text) record.comment →
            record.target = none) := by
  obtain ⟨rules, result, hrules, hscan, hrecords⟩ := dialect.scan_ok hcheck text
  refine ⟨rules, result, hrules, hscan, by rw [hrecords, run_comments], ?_⟩
  rw [hrecords]
  intro record hmem houter
  obtain ⟨before, e, hsplit, -, htracker, hbound⟩ :=
    run_at_comment (originLaw (rules.reading options text)).windowLaw _ hmem
  rw [← hbound.comment] at hsplit htracker
  refine ⟨before, e.rest, _, hsplit, rfl, fun site hsite => ?_,
    fun hinterrupted => ?_⟩
  · obtain ⟨hlt, hbefore, hafter⟩ :=
      items_around_comment (dialect.plain hrules) hsplit
    obtain ⟨t, horigin, hstart⟩ :=
      hbound.outer (hbound.comment ▸ houter) site hsite
    rw [htracker] at horigin
    exact .of_origin hlt (fun t ht => hbefore t (scopesAt_header ht)) hafter
      horigin hstart
  · -- the record held for the comment is the one there is
    obtain ⟨hdoc, honce⟩ := run_records_once rules options text record hmem
    obtain ⟨depth, horphan⟩ := run_interrupted hdoc houter hinterrupted
    rw [← hsplit] at horphan
    rw [honce _ horphan rfl]

/-- A comment at a parameter. -/
def commentAtParameter : List Char := "f(\n///a\na)\x7b\x7d".toList

/-- A comment in a parameter list, with no other comment waiting. -/
theorem parameter_record_follows_unless_in_header :
    ({} : ScanSettings).check = .ok {}
      ∧ ∃ result record before after m,
        Dialect.java.rules.scan {} commentAtParameter = .ok result
          ∧ record ∈ result.records ∧ record.comment.placement = .outer
          ∧ Dialect.java.rules.items commentAtParameter
            = before ++ .comment record.comment :: after
          ∧ m = (Matcher.consume
            (Dialect.java.rules.reading {} commentAtParameter) {}
            before).matcher
          ∧ (∀ site, record.target = some site → FollowsUnlessIn
            (m.scopesAt (Dialect.java.rules.reading {} commentAtParameter)
              record.comment).header record site)
          ∧ (m.Interrupted (Dialect.java.rules.reading {} commentAtParameter)
            record.comment → record.target = none) := by
  obtain ⟨rules, result, hrules, hscan, hdocs, hfollows⟩ :=
    outer_records_follow_unless_in_header .java {} {} rfl commentAtParameter
  have happlied : Dialect.java.rules = rules := Except.ok.inj hrules
  rw [← happlied] at hdocs hfollows
  have hplaces : (result.records.map (·.comment)).map (·.placement)
      = [.outer] := by
    rw [hdocs, Dialect.items_eq]
    decide +kernel
  rw [List.map_map] at hplaces
  obtain ⟨record, hmem, hplace⟩ :=
    List.mem_map.1 (hplaces.symm ▸ List.mem_singleton_self Placement.outer)
  obtain ⟨before, after, m, hconclusion⟩ := hfollows record hmem hplace
  exact ⟨rfl, result, record, before, after, m, hscan, hmem, hplace,
    hconclusion⟩

/-- A comment in a parameter list is bound to the function around it, which
starts in front of the comment. -/
theorem parameter_comment_documents_function :
    (Dialect.java.rules.scan {} commentAtParameter).toOption.map (fun result =>
      result.records.map fun record =>
        (record.comment.placement, record.comment.start, record.comment.stop,
          record.target.map fun site => (site.name, site.start)))
      = some [(.outer, 3, 7, some ("f", 0))] := by
  have hscan : Dialect.java.rules.scan {} commentAtParameter
      = .ok (Dialect.java.rules.index {} commentAtParameter).result := rfl
  simp only [hscan, Except.toOption, Option.map_some, index_records,
    Dialect.items_eq]
  refine congrArg some ?_
  decide +kernel

end Marginalia
