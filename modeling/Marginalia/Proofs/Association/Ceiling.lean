/-
What the size of the window decides.

A window closes on what the scopes do, on an empty line, on another comment,
or because too many tokens went by. Only the first of these binds, and what
it binds to does not depend on when the others would have come: it is a
function of the comment's encounter and of the stream behind it
(`Encounter.settled`), without any count of tokens. So a record that has a
declaration has that one, whatever the size of the window (`settledLaw`).

A smaller window does change the run: it closes early, and a comment that
would have been held may open a window of its own. The runs are therefore
never compared with each other, but each with the encounters of the stream,
which they share because the scopes do not look at windows.
-/
import Marginalia.Proofs.Association.Account
import Marginalia.Proofs.Association.Binding
import Marginalia.Proofs.Association.Prefix

namespace Marginalia

-- ======================================================= settlements

/-- What a window comes to over the items that are left, when only the scopes
can close it. -/
def Window.settles (reading : Reading) (w : Window) (t : Tracker) :
    List Item → Option Site
  | [] => ((t.flush reading.rules reading.scopeLines).2.findSome? w.decide).join
  | item :: items =>
    match (t.read reading item).2.findSome? (w.meets reading item).decide with
    | some target => target
    | none =>
      (w.passes reading item).settles reading (t.read reading item).1 items

/-- The declaration that a window opened at the encounter comes to, when only
the scopes can close it. -/
def Encounter.settled (reading : Reading) (e : Encounter) : Option Site :=
  e.window.settles reading e.tracker e.rest

/-- A window that is open, and what it comes to. -/
structure Unsettled (reading : Reading) (e : Encounter) (w : Window)
    (t : Tracker) (items : List Item) : Prop where
  outer : e.comment.placement = .outer
  comment : w.comment = e.comment
  depth : w.depth = e.tracker.depth
  settles : w.settles reading t items = e.settled reading

/-- The record of a window that closes with what it comes to, or without a
declaration. -/
theorem Unsettled.bound {reading : Reading} {e : Encounter} {w : Window}
    {t : Tracker} {items : List Item} (h : Unsettled reading e w t items)
    {target : Option Site}
    (htarget : ∀ site,
      target = some site → w.settles reading t items = some site) :
    Bound (fun e site => e.settled reading = some site) e
      ⟨w.comment, target, w.depth⟩ where
  comment := h.comment
  depth := h.depth
  inner hp := absurd (h.outer.symm.trans hp) Placement.noConfusion
  outer _ site hsite := h.settles.symm.trans (htarget site hsite)

/-- A record with a declaration has the one that its encounter comes to. -/
theorem settledLaw (reading : Reading) :
    WindowLaw reading (Unsettled reading)
      (Bound fun e site => e.settled reading = some site) where
  inner _ hp := .around hp
  inHeader _ hp := .unbound hp rfl rfl
  opens e hp := ⟨hp, rfl, rfl, rfl⟩
  orphan _ _ _ _ h := .unbound h.outer h.comment h.depth
  item e w t item items h := by
    have hsettles := h.settles
    rw [Window.settles] at hsettles
    split
    · next target hdecide =>
      refine h.bound fun site hsite => ?_
      rw [Window.settles, hdecide]
      exact hsite
    · next hdecide =>
      rw [hdecide] at hsettles
      exact ⟨h.outer, (w.passes_comment reading item).trans h.comment,
        (w.passes_depth reading item).trans h.depth, hsettles⟩
  ending e w t h target hdecide := by
    refine h.bound fun site hsite => ?_
    rw [Window.settles, hdecide, hsite]
    rfl

-- ====================================================== two readings

/-- The reading with a window of another size. -/
def Reading.withWindow (reading : Reading) (size : Nat) (written : String) :
    Reading :=
  { reading with window := size, writtenWindow := written }

section Resized

variable (reading : Reading) (size : Nat) (written : String)

theorem settles_withWindow (items : List Item) :
    ∀ (w : Window) (t : Tracker),
      w.settles (reading.withWindow size written) t items
        = w.settles reading t items := by
  induction items with
  | nil => intro w t; rfl
  | cons item items ih =>
      intro w t
      simp only [Window.settles, ih]
      rfl

theorem encounters_withWindow (items : List Item) :
    ∀ t : Tracker,
      encounters (reading.withWindow size written) t items
        = encounters reading t items := by
  induction items with
  | nil => intro t; rfl
  | cons item items ih =>
      intro t
      simp only [encounters, ih]
      rfl

theorem readAll_withWindow (items : List Item) (t : Tracker) :
    t.readAll (reading.withWindow size written) items
      = t.readAll reading items := rfl

end Resized

/-- Two records of one comment that differ at most in whether they have a
declaration: an inner comment's are the same, and an outer comment's have the
same one if both have one. -/
structure Record.AgreesWith (record other : Record) : Prop where
  comment : record.comment = other.comment
  depth : record.depth = other.depth
  inner : record.comment.placement = .inner → record = other
  outer : record.comment.placement = .outer → ∀ site site',
    record.target = some site →
    other.target = some site' → site = site'

/-- Two records of one encounter agree. -/
theorem Bound.agreesWith {Binds : Encounter → Site → Prop} {e : Encounter}
    {record other : Record}
    (hunique : ∀ site site', Binds e site → Binds e site' → site = site')
    (h : Bound Binds e record) (h' : Bound Binds e other) :
    record.AgreesWith other where
  comment := h.comment.trans h'.comment.symm
  depth := h.depth.trans h'.depth.symm
  inner hp := by
    obtain ⟨comment, target, depth⟩ := record
    obtain ⟨comment', target', depth'⟩ := other
    have hplace : e.comment.placement = .inner := h.comment ▸ hp
    rw [Record.mk.injEq]
    exact ⟨h.comment.trans h'.comment.symm,
      (h.inner hplace).trans (h'.inner hplace).symm,
      h.depth.trans h'.depth.symm⟩
  outer hp site site' hsite hsite' := by
    have hplace : e.comment.placement = .outer := h.comment ▸ hp
    exact hunique site site' (h.outer hplace site hsite)
      (h'.outer hplace site' hsite')

/-- Two lists that are each related to a third are related to each other. -/
theorem forall₂_of_common {α β γ : Type} {R : α → β → Prop} {S : α → γ → Prop}
    {T : β → γ → Prop} (hT : ∀ a b c, R a b → S a c → T b c) {xs : List α}
    {ys : List β} (h : List.Forall₂ R xs ys) :
    ∀ {zs : List γ}, List.Forall₂ S xs zs → List.Forall₂ T ys zs := by
  induction h with
  | nil =>
      intro zs h'
      cases h'
      exact .nil
  | cons hxy _ ih =>
      intro zs h'
      cases h' with
      | cons hxz hrest => exact .cons (hT _ _ _ hxy hxz) (ih hrest)

/-- Runs with windows of two sizes over one stream. -/
theorem run_agrees (reading : Reading) (size : Nat) (written : String)
    (items : List Item) :
    List.Forall₂ Record.AgreesWith (Matcher.run reading {} items).records
      (Matcher.run (reading.withWindow size written) {} items).records := by
  have hfirst := run_records (settledLaw reading) {} items
  have hsecond :=
    run_records (settledLaw (reading.withWindow size written)) {} items
  simp only [encounters_withWindow, Encounter.settled, settles_withWindow]
    at hsecond
  refine forall₂_of_common (fun e record other h h' => h.agreesWith ?_ h')
    hfirst hsecond
  intro site site' hsite hsite'
  exact Option.some.inj (hsite.symm.trans hsite')

-- ========================================================== the scan

/-- Settings that differ in the size of the window amount to options that do. -/
theorem check_withWindow {settings : ScanSettings} {size : Value}
    {options options' : ScanOptions} (h : settings.check = .ok options)
    (h' : { settings with windowMaxTokens := size }.check = .ok options') :
    options' = { options with
      window := options'.window
      writtenWindow := options'.writtenWindow } := by
  obtain ⟨values, hvalues, hpatterns, -, -, hincluded, houter, hinner⟩ :=
    check_parts h
  obtain ⟨values', hvalues', hpatterns', -, -, hincluded', houter', hinner'⟩ :=
    check_parts h'
  obtain rfl : values = values' := Except.ok.inj (hvalues.symm.trans hvalues')
  obtain ⟨window, written, included, patterns, outer, inner⟩ := options'
  rw [ScanOptions.mk.injEq]
  exact ⟨rfl, rfl, hincluded'.trans hincluded.symm,
    Except.ok.inj (hpatterns'.symm.trans hpatterns),
    Except.ok.inj (houter'.symm.trans houter),
    Except.ok.inj (hinner'.symm.trans hinner)⟩

/-- Of two scans that differ in the size of the window, the diagnostics are
the same, and the records agree one by one. -/
theorem window_size_decides_only_binding (dialect : Dialect)
    (settings : ScanSettings) (size : Value) (options options' : ScanOptions)
    (hcheck : settings.check = .ok options)
    (hcheck' : { settings with windowMaxTokens := size }.check = .ok options')
    (text : List Char) :
    ∃ result result', dialect.rules.scan options text = .ok result
      ∧ dialect.rules.scan options' text = .ok result'
      ∧ result.diagnostics = result'.diagnostics
      ∧ List.Forall₂ Record.AgreesWith result.records result'.records := by
  obtain ⟨rules, hrules, hscan⟩ := dialect.scan_index hcheck text
  obtain ⟨rules', hrules', hscan'⟩ := dialect.scan_index hcheck' text
  have hoptions := check_withWindow hcheck hcheck'
  have hsame : dialect.rules.withOptions options'
      = dialect.rules.withOptions options := by
    rw [hoptions]
    rfl
  obtain rfl : rules = rules' :=
    Except.ok.inj (hrules.symm.trans (hsame.symm.trans hrules'))
  have hreading : rules.reading options' text
      = (rules.reading options text).withWindow options'.window
        options'.writtenWindow := by
    rw [hoptions]
    rfl
  refine ⟨_, _, hscan, hscan', ?_, ?_⟩
  · simp only [index_diagnostics, run_tracker, hreading, readAll_withWindow]
    rfl
  · rw [index_records, index_records, hreading]
    exact run_agrees _ _ _ _

/-- Comments above a function, at its parameter and in its body. -/
def threeCommentsOfFunction : List Char :=
  "///a\nfn f(\n///b\nx)\x7b\n//!c\n\x7d".toList

/-- With a window of two tokens the first comment is orphaned, and the one in
the parameter list, which it no longer holds up, is bound instead. -/
theorem window_of_two_decides_only_binding :
    ({} : ScanSettings).check = .ok {}
      ∧ ({ windowMaxTokens := .int 2 } : ScanSettings).check
        = .ok { window := 2 }
      ∧ ∃ result result',
        Dialect.rust.rules.scan {} threeCommentsOfFunction = .ok result
          ∧ Dialect.rust.rules.scan { window := 2 }
            threeCommentsOfFunction = .ok result'
          ∧ List.Forall₂ Record.AgreesWith result.records result'.records
          ∧ result.records.map (·.isOrphan) = [false, true, false]
          ∧ result'.records.map (·.isOrphan) = [true, false, false] := by
  obtain ⟨result, result', hscan, hscan', -, hrecords⟩ :=
    window_size_decides_only_binding .rust {} (.int 2) {}
      { window := 2 } rfl rfl threeCommentsOfFunction
  have happlied : ∀ window, Dialect.rust.rules.withOptions { window }
      = .ok Dialect.rust.rules := fun _ => rfl
  refine ⟨rfl, rfl, result, result', hscan, hscan', hrecords, ?_, ?_⟩
  · rw [scan_records (happlied 128) hscan, Dialect.items_eq]
    decide +kernel
  · rw [scan_records (happlied 2) hscan', Dialect.items_eq]
    decide +kernel

end Marginalia
