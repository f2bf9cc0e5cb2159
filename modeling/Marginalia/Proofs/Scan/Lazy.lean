/-
Records on request.

An index hands out records one by one or all that are left, in any order of
requests, and both ways of reading are defined apart. Here they are shown to
go through one list, that of the scan.

What an index still has to give is fixed by its state: the records that are
ready, and those of a run over what is unread (`left`). Reading ahead moves
records from the second part to the first and changes nothing else that can
be seen (`Ahead`), and it stops with nothing ready only at the end of the
text. So a request takes records off the front of `left`, and an index on
which the records ran out has none left; this is `Course`, which every
request keeps (`Course.serve`) and with it every sequence of requests
(`Course.serveAll`). The problems of scopes are those that the run over the
unread part will have met, whoever reads it.
-/
import Marginalia.Proofs.Association.Stream
import Marginalia.Proofs.Scan.Applied

namespace Marginalia.Index

-- ========================================================== requests

/-- What can be asked of an index: the next record, all that are left, or only
how it stands. -/
inductive Request where
  | next
  | collect
  | peek
  deriving DecidableEq, Repr

/-- The records handed out on a request, and the index after it. -/
def serve (index : Index) : Request → List Record × Index
  | .next => (index.next.1.toList, index.next.2)
  | .collect => index.collect
  | .peek => ([], index)

/-- The records handed out on one request after the other. -/
def serveAll (index : Index) : List Request → List Record × Index
  | [] => ([], index)
  | request :: requests =>
    let served := index.serve request
    let rest := served.2.serveAll requests
    (served.1 ++ rest.1, rest.2)

/-- The request finds that no record is left: all were asked for, or one was and
there is none. -/
def FindsNone (index : Index) (request : Request) : Prop :=
  request = .collect ∨ request = .next ∧ index.next.1 = none

/-- One of the requests finds that no record is left. -/
def RunsOut (index : Index) (requests : List Request) : Prop :=
  ∃ front request back, requests = front ++ request :: back
    ∧ (index.serveAll front).2.FindsNone request

theorem not_runsOut_nil (index : Index) : ¬ index.RunsOut [] := by
  rintro ⟨front, request, back, h, -⟩
  exact absurd h.symm (by simp)

/-- The requests find the end with the first, or after it. -/
theorem runsOut_cons {index : Index} {request : Request}
    {requests : List Request} :
    index.RunsOut (request :: requests)
      ↔ index.FindsNone request ∨ (index.serve request).2.RunsOut requests := by
  constructor
  · rintro ⟨front, found, back, hsplit, hnone⟩
    cases front with
    | nil =>
        obtain ⟨rfl, -⟩ := List.cons.inj hsplit
        exact .inl hnone
    | cons first front =>
        obtain ⟨rfl, hrest⟩ := List.cons.inj hsplit
        exact .inr ⟨front, found, back, hrest, hnone⟩
  · rintro (hnone | ⟨front, found, back, rfl, hnone⟩)
    · exact ⟨[], request, requests, rfl, hnone⟩
    · exact ⟨request :: front, found, back, rfl, hnone⟩

-- ====================================================== what is left

/-- The run over what is unread. -/
def rest (index : Index) : Matched :=
  match index.unread with
  | some items => index.matcher.run index.reading items
  | none => { matcher := index.matcher }

/-- The records that an index still has to give. -/
def left (index : Index) : List Record := index.ready ++ index.rest.records

/-- What is wrong with the scopes of the text, known at its end. -/
def scopeDiagnostics (index : Index) : List Diagnostic :=
  index.rest.matcher.tracker.diagnostics

/-- The second index is the first with more of the text read. -/
structure Ahead (index read : Index) : Prop where
  left : read.left = index.left
  scopeDiagnostics : read.scopeDiagnostics = index.scopeDiagnostics
  diagnostics : read.diagnostics = index.diagnostics
  exhausted : read.exhausted = index.exhausted

theorem Ahead.refl (index : Index) : Ahead index index := ⟨rfl, rfl, rfl, rfl⟩

theorem Ahead.trans {first second third : Index} (h : Ahead first second)
    (h' : Ahead second third) : Ahead first third :=
  ⟨h'.left.trans h.left, h'.scopeDiagnostics.trans h.scopeDiagnostics,
    h'.diagnostics.trans h.diagnostics, h'.exhausted.trans h.exhausted⟩

/-- A part of the run that is made now is no longer to be made. -/
theorem absorb_ahead {index : Index} {matched : Matched}
    {unread : Option (List Item)} (h : index.rest = matched.andThen fun m =>
      { index with matcher := m, unread }.rest) :
    Ahead index (index.absorb matched unread) where
  left := by
    rw [left, left, h]
    exact List.append_assoc ..
  scopeDiagnostics := by
    rw [scopeDiagnostics, scopeDiagnostics, h]
    rfl
  diagnostics := rfl
  exhausted := rfl

/-- Reading on until a record comes out stops without one only at the end of
the text. -/
theorem advance_ahead (items : List Item) :
    ∀ index : Index, index.unread = some items →
      Ahead index (index.advance items)
        ∧ ((index.advance items).ready = [] →
          (index.advance items).unread = none) := by
  induction items with
  | nil =>
      intro index hunread
      refine ⟨absorb_ahead ?_, fun _ => rfl⟩
      rw [rest, hunread]
      simp [Matched.andThen, rest, Matcher.run]
  | cons item items ih =>
      intro index hunread
      have hread : Ahead index
          (index.absorb (index.matcher.step index.reading item)
            (some items)) := by
        apply absorb_ahead
        rw [rest, hunread]
        rfl
      rw [advance]
      by_cases hempty : (index.absorb (index.matcher.step index.reading item)
        (some items)).ready.isEmpty = true
      · rw [if_pos hempty]
        obtain ⟨hahead, hend⟩ :=
          ih (index.absorb (index.matcher.step index.reading item) (some items))
            rfl
        exact ⟨hread.trans hahead, hend⟩
      · rw [if_neg hempty]
        exact ⟨hread, fun hnone => absurd (List.isEmpty_iff.2 hnone) hempty⟩

/-- Reading on until a record is ready gives an index ahead of the first, and
one with no record ready only at the end of the text. -/
theorem fill_ahead (index : Index) :
    Ahead index index.fill
      ∧ (index.fill.ready = [] → index.fill.unread = none) := by
  unfold fill
  by_cases hempty : index.ready.isEmpty = true
  · rw [if_pos hempty]
    cases hunread : index.unread with
    | none => exact ⟨.refl index, fun _ => hunread⟩
    | some items => exact advance_ahead items index hunread
  · rw [if_neg hempty]
    exact ⟨.refl index, fun hnone => absurd (List.isEmpty_iff.2 hnone) hempty⟩

/-- A record is handed out if reading ahead makes one ready. -/
theorem next_eq (index : Index) :
    (∃ record ready, index.fill.ready = record :: ready
        ∧ index.next = (some record, { index.fill with ready }))
      ∨ index.fill.ready = [] ∧ index.next = (none, index.fill.exhaust) := by
  unfold next
  cases hready : index.fill.ready with
  | nil => exact .inr ⟨rfl, by simp only [hready]⟩
  | cons record ready => exact .inl ⟨record, ready, rfl, by simp only [hready]⟩

-- ============================================================ course

/-- An index with these records left, of a text with problems that are known
from the start and problems of scopes that are still to be met. -/
structure Course (known pending : List Diagnostic) (records : List Record)
    (index : Index) : Prop where
  left : index.left = records
  scopes : index.scopeDiagnostics = pending
  before : index.exhausted = false → index.diagnostics = known
  after : index.exhausted = true →
    index.diagnostics = known ++ pending ∧ records = []

section Course

variable {known pending : List Diagnostic} {records : List Record}
    {index : Index}

/-- Reading on does not change the course. -/
theorem Course.ahead {read : Index} (h : Course known pending records index)
    (hahead : Ahead index read) : Course known pending records read where
  left := hahead.left.trans h.left
  scopes := hahead.scopeDiagnostics.trans h.scopes
  before hexhausted := by
    rw [hahead.diagnostics]
    exact h.before (hahead.exhausted ▸ hexhausted)
  after hexhausted := by
    rw [hahead.diagnostics]
    exact h.after (hahead.exhausted ▸ hexhausted)

/-- Noting that the records ran out, when they did. -/
theorem Course.exhaust (h : Course known pending [] index)
    (hunread : index.unread = none) :
    Course known pending [] index.exhaust ∧ index.exhaust.exhausted = true := by
  have hscopes : index.matcher.tracker.diagnostics = pending := by
    rw [← h.scopes, scopeDiagnostics, rest, hunread]
  unfold Index.exhaust
  by_cases hexhausted : index.exhausted = true
  · rw [if_pos hexhausted]
    exact ⟨h, hexhausted⟩
  · rw [if_neg hexhausted]
    have hknown := h.before (by simpa using hexhausted)
    refine ⟨⟨h.left, h.scopes, fun hfalse => absurd hfalse (by simp),
      fun _ => ⟨?_, rfl⟩⟩, rfl⟩
    rw [hknown, hscopes]

/-- The next record is the first that is left. -/
theorem Course.next (h : Course known pending records index) :
    (∃ record others, records = record :: others ∧ index.next.1 = some record
        ∧ Course known pending others index.next.2
        ∧ index.next.2.exhausted = index.exhausted)
      ∨ records = [] ∧ index.next.1 = none
        ∧ Course known pending [] index.next.2
        ∧ index.next.2.exhausted = true := by
  obtain ⟨hahead, hend⟩ := index.fill_ahead
  have hfilled := h.ahead hahead
  have hleft := hfilled.left
  rcases index.next_eq with ⟨record, ready, hready, hnext⟩ | ⟨hready, hnext⟩
  · rw [hnext]
    rw [Index.left, hready, List.cons_append] at hleft
    refine .inl ⟨record, _, hleft.symm, rfl,
      ⟨rfl, hfilled.scopes, hfilled.before, ?_⟩, hahead.exhausted⟩
    intro hexhausted
    have hnone := (hfilled.after hexhausted).2
    rw [hnone] at hleft
    cases hleft
  · rw [hnext]
    have hnone : records = [] := by
      rw [← hleft, Index.left, hready, rest, hend hready]
      rfl
    subst hnone
    obtain ⟨hcourse, hexhausted⟩ := hfilled.exhaust (hend hready)
    exact .inr ⟨rfl, rfl, hcourse, hexhausted⟩

/-- Collecting hands out all that is left. -/
theorem Course.collect (h : Course known pending records index) :
    index.collect.1 = records ∧ Course known pending [] index.collect.2
      ∧ index.collect.2.exhausted = true := by
  have hread : ∀ read : Index, Ahead index read → read.unread = none →
      read.ready = records
        ∧ Course known pending [] { read with ready := [] }.exhaust
        ∧ { read with ready := [] }.exhaust.exhausted = true := by
    intro read hahead hunread
    have hcourse := h.ahead hahead
    have hready : read.ready = records := by
      rw [← hcourse.left, Index.left, rest, hunread]
      exact (List.append_nil _).symm
    have hspent : Course known pending [] { read with ready := [] } := by
      refine ⟨?_, hcourse.scopes, hcourse.before, fun hexhausted => ?_⟩
      · show ([] : List Record) ++ read.rest.records = []
        rw [rest, hunread]
        rfl
      · exact ⟨(hcourse.after hexhausted).1, rfl⟩
    exact ⟨hready, hspent.exhaust hunread⟩
  unfold Index.collect
  cases hunread : index.unread with
  | none => exact hread index (.refl index) hunread
  | some items =>
      refine hread _ (absorb_ahead ?_) rfl
      rw [rest, hunread]
      simp [Matched.andThen, rest]

/-- A request takes records off the front of those that are left. The index is
exhausted after it if it was before, or if the request finds no record. -/
theorem Course.serve (h : Course known pending records index)
    (request : Request) :
    ∃ others, records = (index.serve request).1 ++ others
      ∧ Course known pending others (index.serve request).2
      ∧ ((index.serve request).2.exhausted = true
        ↔ index.exhausted = true ∨ index.FindsNone request) := by
  cases request with
  | next =>
      rcases h.next with ⟨record, others, rfl, hsome, hcourse, hexhausted⟩
        | ⟨rfl, hnone, hcourse, hexhausted⟩
      · refine ⟨others, by rw [Index.serve, hsome]; rfl, hcourse, ?_⟩
        show index.next.2.exhausted = true ↔ _
        rw [hexhausted]
        constructor
        · exact .inl
        · rintro (htrue | hfinds | ⟨-, hnone⟩)
          · exact htrue
          · cases hfinds
          · rw [hsome] at hnone
            cases hnone
      · refine ⟨[], by rw [Index.serve, hnone]; rfl, hcourse, ?_⟩
        exact ⟨fun _ => .inr (.inr ⟨rfl, hnone⟩), fun _ => hexhausted⟩
  | collect =>
      obtain ⟨hall, hcourse, hexhausted⟩ := h.collect
      refine ⟨[], by rw [Index.serve, hall, List.append_nil], hcourse, ?_⟩
      exact ⟨fun _ => .inr (.inl rfl), fun _ => hexhausted⟩
  | peek =>
      refine ⟨records, rfl, h, ?_⟩
      constructor
      · exact .inl
      · rintro (htrue | hfinds | ⟨hfinds, -⟩)
        · exact htrue
        · cases hfinds
        · cases hfinds

/-- Requests take records off the front of those that are left, one after the
other. -/
theorem Course.serveAll (requests : List Request) :
    ∀ {records : List Record} {index : Index},
      Course known pending records index →
      ∃ others, records = (index.serveAll requests).1 ++ others
        ∧ Course known pending others (index.serveAll requests).2
        ∧ ((index.serveAll requests).2.exhausted = true
          ↔ index.exhausted = true ∨ index.RunsOut requests) := by
  induction requests with
  | nil =>
      intro records index h
      refine ⟨records, rfl, h, .inl, ?_⟩
      rintro (htrue | hout)
      · exact htrue
      · exact absurd hout index.not_runsOut_nil
  | cons request requests ih =>
      intro records index h
      obtain ⟨behind, rfl, hserved, hexhausted⟩ := h.serve request
      obtain ⟨others, rfl, hcourse, hthen⟩ := ih hserved
      refine ⟨others, (List.append_assoc ..).symm, hcourse, ?_⟩
      rw [runsOut_cons, ← or_assoc, ← hexhausted]
      exact hthen

/-- A fresh index has the records of a whole run before it. -/
theorem course_index (rules : Rules) (options : ScanOptions)
    (text : List Char) :
    Course (Span.diagnostics (.ofText text) (rules.spans text))
      (Matcher.run (rules.reading options text) {}
        (rules.items text)).matcher.tracker.diagnostics
      (Matcher.run (rules.reading options text) {} (rules.items text)).records
      (rules.index options text) where
  left := rfl
  scopes := rfl
  before _ := rfl
  after hexhausted := absurd hexhausted (by simp [Rules.index])

end Course

-- ========================================================== the scan

/-- What requests to a fresh index get to see, against all that a scan finds;
`known` are the problems of the text's comments and literals. -/
structure Follows (index : Index) (requests : List Request)
    (known : List Diagnostic) (result : ScanResult) : Prop where
  handed : (index.serveAll requests).1 <+: result.records
  exhausted : (index.serveAll requests).2.exhausted = true
    ↔ index.RunsOut requests
  before : (index.serveAll requests).2.exhausted = false →
    (index.serveAll requests).2.diagnostics = known
  after : (index.serveAll requests).2.exhausted = true →
    (index.serveAll requests).1 = result.records
      ∧ (index.serveAll requests).2.diagnostics = result.diagnostics
  /-- Once the records ran out no more come, and the index stays exhausted. -/
  further : (index.serveAll requests).2.exhausted = true → ∀ more,
    ((index.serveAll requests).2.serveAll more).1 = []
      ∧ ((index.serveAll requests).2.serveAll more).2.exhausted = true

/-- Whatever is requested of the index of a text, in whatever order, goes
through the records of its scan once. The problems of scopes are added when
they run out. -/
theorem requests_follow_scan (dialect : Dialect) (settings : ScanSettings)
    (options : ScanOptions) (hcheck : settings.check = .ok options)
    (text : List Char) :
    ∃ rules result, dialect.rules.withOptions options = .ok rules
      ∧ dialect.rules.scan options text = .ok result
      ∧ ∀ requests, (rules.index options text).Follows requests
        (Span.diagnostics (.ofText text) (rules.spans text)) result := by
  obtain ⟨rules, hrules, hscan⟩ := dialect.scan_index hcheck text
  refine ⟨rules, _, hrules, hscan, fun requests => ?_⟩
  obtain ⟨others, hsplit, hcourse, hexhausted⟩ :=
    (course_index rules options text).serveAll requests
  have hfresh : (rules.index options text).exhausted = false := rfl
  rw [hfresh, or_iff_right Bool.false_ne_true] at hexhausted
  rw [← index_records] at hsplit
  refine ⟨⟨others, hsplit.symm⟩, hexhausted, hcourse.before,
    fun hout => ?_, fun hout more => ?_⟩
  · obtain ⟨hdiagnostics, hnone⟩ := hcourse.after hout
    rw [hnone, List.append_nil] at hsplit
    exact ⟨hsplit.symm, by rw [hdiagnostics, index_diagnostics]⟩
  · obtain ⟨-, hnone⟩ := hcourse.after hout
    obtain ⟨behind, hmore, -, hstays⟩ := hcourse.serveAll more
    rw [hnone] at hmore
    exact ⟨(List.append_eq_nil_iff.1 hmore.symm).1, hstays.2 (.inl hout)⟩

/-- Two comments and a scope that stays open. -/
def twoCommentsAndBrace : List Char := "///a\n\n///b\n\x7b".toList

/-- One record taken, then the other one collected; the open scope is known
only then. -/
theorem taking_then_collecting_follows_scan :
    ({} : ScanSettings).check = .ok {}
      ∧ ∃ rules result, Dialect.c.rules.withOptions {} = .ok rules
        ∧ Dialect.c.rules.scan {} twoCommentsAndBrace = .ok result
        ∧ (rules.index {} twoCommentsAndBrace).Follows [.next, .peek] [] result
        ∧ ¬ (rules.index {} twoCommentsAndBrace).RunsOut [.next, .peek]
        ∧ (rules.index {} twoCommentsAndBrace).Follows [.next, .peek,
          .collect] [] result
        ∧ result.records.length = 2 ∧ result.diagnostics.length = 1 := by
  obtain ⟨rules, result, hrules, hscan, hfollows⟩ :=
    requests_follow_scan .c {} {} rfl twoCommentsAndBrace
  have happlied : Dialect.c.rules = rules := Except.ok.inj hrules
  rw [← happlied] at hfollows
  have hknown : Span.diagnostics (.ofText twoCommentsAndBrace)
      (Dialect.c.rules.spans twoCommentsAndBrace) = [] := by
    rw [Dialect.spans_eq]
    decide +kernel
  rw [hknown] at hfollows
  have hopen : ((Dialect.c.rules.index {} twoCommentsAndBrace).serveAll
      [.next, .peek]).2.exhausted = false := by
    rw [Rules.index, Dialect.items_eq, Dialect.spans_eq]
    decide +kernel
  have hindex : Dialect.c.rules.scan {} twoCommentsAndBrace
      = .ok (Dialect.c.rules.index {} twoCommentsAndBrace).result := rfl
  obtain rfl := Except.ok.inj (hindex.symm.trans hscan)
  have hrecords :
      (Dialect.c.rules.index {} twoCommentsAndBrace).result.records.length
        = 2 := by
    rw [index_records, Dialect.items_eq]
    decide +kernel
  have hdiagnostics :
      (Dialect.c.rules.index {} twoCommentsAndBrace).result.diagnostics.length
        = 1 := by
    rw [index_diagnostics, Dialect.items_eq, Dialect.spans_eq]
    decide +kernel
  refine ⟨rfl, rules, _, hrules, hscan, ?_⟩
  rw [← happlied]
  refine ⟨hfollows _, fun hout => ?_, hfollows _, hrecords, hdiagnostics⟩
  rw [← (hfollows [.next, .peek]).exhausted, hopen] at hout
  cases hout

end Marginalia.Index
