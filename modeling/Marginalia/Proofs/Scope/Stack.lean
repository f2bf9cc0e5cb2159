/-
The stack of scopes, whatever a tracker is asked for.

A tracker takes four calls, in any order: to read a token, to end a statement
at a line break or at the end of the text, and to close what is open. `log`
is the list of calls with the events that each of them reports. Whatever one
call keeps of a tracker and its log, all calls keep (`callAll_keeps`).

Pushes and pops match like brackets, so the log alone says which pushes opened
the scopes that are open (`openings`), and the stack holds just these. The
path of a declaration was taken when its scope was opened; by `Nested` it is
still that of the scopes below.
-/
import Marginalia.Proofs.Scope.Nesting

namespace Marginalia

-- ============================================================= calls

/-- What a tracker can be asked for. -/
inductive ScopeCall where
  | feed (token : Token)
  | breakBefore (offset : Nat)
  | flush
  | close (textEnd : Int)
  deriving Repr

namespace Tracker

section Calls

variable (rules : Rules) (lines : Text.Lines)

/-- The tracker after a call, and the events the call reports. -/
def call (tracker : Tracker) : ScopeCall → Tracker × List ScopeEvent
  | .feed token =>
    let fed := tracker.feed rules lines token
    (fed.tracker, fed.events)
  | .breakBefore offset => tracker.breakBefore rules lines offset
  | .flush => tracker.flush rules lines
  | .close textEnd => ((tracker.close lines textEnd).tracker, [])

/-- The tracker after all calls. -/
def callAll (tracker : Tracker) : List ScopeCall → Tracker
  | [] => tracker
  | call :: calls => (tracker.call rules lines call).1.callAll calls

/-- The calls, each with the events it reports. -/
def log (tracker : Tracker) :
    List ScopeCall → List (ScopeCall × List ScopeEvent)
  | [] => []
  | call :: calls =>
    (call, (tracker.call rules lines call).2)
      :: (tracker.call rules lines call).1.log calls

/-- What every call keeps of a tracker and of the log up to it holds after all
calls. -/
theorem callAll_keeps {P : Tracker → List (ScopeCall × List ScopeEvent) → Prop}
    (hcall : ∀ t log call, P t log →
      P (t.call rules lines call).1
        (log ++ [(call, (t.call rules lines call).2)]))
    (calls : List ScopeCall) :
    ∀ t log, P t log →
    P (t.callAll rules lines calls) (log ++ t.log rules lines calls) := by
  induction calls with
  | nil =>
      intro t log h
      rw [Tracker.log, List.append_nil]
      exact h
  | cons call calls ih =>
      intro t log h
      rw [Tracker.log, List.append_cons]
      exact ih _ _ (hcall t log call h)

/-- A token may first end the line before it. -/
theorem call_feed (t : Tracker) (token : Token) :
    t.call rules lines (.feed token)
      = (((t.breakLine rules lines token.start (some token.text)).1.feedToken
            rules lines token).tracker,
          (t.breakLine rules lines token.start (some token.text)).2
            ++ ((t.breakLine rules lines token.start
              (some token.text)).1.feedToken rules lines token).events) := rfl

theorem close_levels (t : Tracker) (textEnd : Int) :
    (t.close lines textEnd).tracker.levels = [] := by
  unfold close
  split <;> rfl

end Calls

end Tracker

-- ============================================================ pushes

/-- No scope that is opened is a file's. -/
theorem Opening.frame_kind (opening : Opening) :
    opening.frame.kind ≠ .file := by
  cases opening with
  | declaration site =>
      obtain ⟨kind, name, start, line, path⟩ := site
      cases kind <;> exact ScopeKind.noConfusion
  | block brace => exact ScopeKind.noConfusion

/-- What opened the scopes that are open behind an event, innermost first. -/
def ScopeEvent.replay (opened : List Opening) : ScopeEvent → List Opening
  | .push _ opening _ => opening :: opened
  | .pop .. => opened.tail
  | .statement .. => opened
  | .directive _ => opened

/-- What opened the scopes that are open behind a call. -/
def ScopeCall.replay (opened : List Opening) :
    ScopeCall × List ScopeEvent → List Opening
  | (.close _, _) => []
  | (_, events) => events.foldl ScopeEvent.replay opened

/-- What opened the scopes that are open behind all calls of a log: the pushes
that no pop and no closing has undone, innermost first. -/
def openings (log : List (ScopeCall × List ScopeEvent)) : List Opening :=
  log.foldl ScopeCall.replay []

/-- What opened the frame at a place of the stack, counted from the file's,
which nothing opened. -/
def openedAt (log : List (ScopeCall × List ScopeEvent)) : Nat → Option Opening
  | 0 => none
  | k + 1 => (openings log).reverse[k]?

namespace Tracker

variable {rules : Rules} {lines : Text.Lines} {t : Tracker}
    {opened : List Opening}

/-- The stack holds what the pushes opened, each declaration with the path of
the scopes below. -/
structure Accounted (t : Tracker) (opened : List Opening) : Prop where
  levels : t.levels.map (·.opening) = opened
  nested : Nested t.levels

/-- The end of a statement, or nothing. -/
theorem Accounted.ended (h : t.Accounted opened) {x : Tracker × List ScopeEvent}
    (hx : x = (t, []) ∨ x = ({ t with header := [], parens := 0 },
      [.statement t.depth (t.declared? rules lines .statement)])) :
    x.1.Accounted (x.2.foldl ScopeEvent.replay opened) := by
  rcases hx with rfl | rfl
  · exact h
  · exact ⟨h.levels, h.nested⟩

/-- A token's events account for the scopes that it leaves open. -/
theorem Accounted.feedToken (h : t.Accounted opened) (token : Token) :
    (t.feedToken rules lines token).tracker.Accounted
      ((t.feedToken rules lines token).events.foldl ScopeEvent.replay
        opened) := by
  refine ⟨?_, feedToken_nested token h.nested⟩
  have hlevels := h.levels
  have hstep := feedToken_step rules lines t token
  generalize t.feedToken rules lines token = fed at hstep
  cases hstep with
  | directive | stray | ended => exact hlevels
  | literal | code => simpa only [append_levels, List.foldl_nil] using hlevels
  | opening => exact congrArg (_ :: ·) hlevels
  | resume _ level levels hl | closing _ level levels hl =>
      rw [hl] at hlevels
      exact congrArg List.tail hlevels

/-- Every call leaves the stack accounted for. -/
theorem Accounted.call (h : t.Accounted opened) (call : ScopeCall) :
    (t.call rules lines call).1.Accounted
      (ScopeCall.replay opened (call, (t.call rules lines call).2)) := by
  cases call with
  | feed token =>
      rw [call_feed, ScopeCall.replay, List.foldl_append]
      · exact (h.ended (breakLine_cases rules lines t _ _)).feedToken token
      · exact fun _ => ScopeCall.noConfusion
  | breakBefore offset =>
      exact h.ended (breakLine_cases rules lines t offset none)
  | flush => exact h.ended (flush_cases rules lines t)
  | close textEnd =>
      have hlevels := close_levels lines t textEnd
      refine ⟨?_, ?_⟩
      · show (t.close lines textEnd).tracker.levels.map (·.opening) = []
        rw [hlevels]
        rfl
      · show Nested (t.close lines textEnd).tracker.levels
        rw [hlevels]
        trivial

/-- So the events of any calls account for the scopes open after them. -/
theorem callAll_accounted (rules : Rules) (lines : Text.Lines)
    (calls : List ScopeCall) :
    (({} : Tracker).callAll rules lines calls).Accounted
      (openings (({} : Tracker).log rules lines calls)) := by
  refine callAll_keeps rules lines
    (P := fun t log => t.Accounted (openings log))
    (fun t log call h => ?_) calls {} [] ⟨rfl, trivial⟩
  rw [openings, List.foldl_append]
  exact h.call call

end Tracker

-- ============================================================= views

/-- What can be seen of a stack of scopes. -/
structure ScopeView where
  frames : List Frame
  depth : Nat
  path : List ScopeRef
  enclosingKind : ScopeKind
  enclosingSite : Option Site

/-- What can be seen of the scopes of a tracker. -/
def Tracker.view (t : Tracker) : ScopeView :=
  ⟨t.frames, t.depth, t.path, t.enclosingKind, t.enclosingSite⟩

/-- The frame that was opened, and the declaration whose body it is. -/
def Opening.shown (opening : Opening) : Frame × Option Site :=
  (opening.frame, opening.site?)

namespace ScopeView

/-- The stack parted at its innermost frame that is no block, `opener` being
what opened its frames, by their places. -/
structure OwnedBy (view : ScopeView)
    (opener : Nat → Option (Frame × Option Site)) (below : List Frame)
    (owner : Frame) (blocks : List Frame) : Prop where
  frames : view.frames = below ++ owner :: blocks
  noBlock : owner.kind ≠ .block
  blocks : ∀ frame ∈ blocks, frame.kind = .block
  kind : view.enclosingKind = owner.kind
  /-- Inside no declaration there is none around. -/
  outside : owner.kind = .file → view.enclosingSite = none
  /-- The declaration around is that of the push that opened the frame, with
  the path that it had then and has now. -/
  inside : owner.kind ≠ .file →
    ∃ site, opener below.length = some (owner, some site)
      ∧ view.enclosingSite = some site ∧ site.path = below.map (·.ref)

/-- What is seen of the stack is in order, `opener` being what opened its
frames, by their places. -/
structure Represented (view : ScopeView)
    (opener : Nat → Option (Frame × Option Site)) : Prop where
  file : view.frames.head? = some .file
  /-- No other frame is a file's. -/
  inside : ∀ frame ∈ view.frames.tail, frame.kind ≠ .file
  path : view.path = view.frames.map (·.ref)
  depth : view.path.length = view.depth
  /-- The other frames are those that pushes opened, all of them. -/
  opened : ∀ k, view.frames[k + 1]? = (opener (k + 1)).map (·.1)
  owner : ∃ below owner blocks, view.OwnedBy opener below owner blocks

end ScopeView

namespace Tracker

variable {t : Tracker}

/-- One more level has its frame at the end. -/
theorem frames_cons (t : Tracker) (level : Level) (levels : List Level) :
    ({ t with levels := level :: levels } : Tracker).frames
      = ({ t with levels } : Tracker).frames ++ [level.opening.frame] := by
  simp [Tracker.frames]

/-- The owner of a stack, level by level: a block has the owner of what is
below it, any other scope is its own. -/
theorem exists_ownedBy (t : Tracker)
    {opener : Nat → Option (Frame × Option Site)} (levels : List Level) :
    Nested levels →
      (∀ k level, levels.reverse[k]? = some level →
        opener (k + 1) = some level.opening.shown) →
      ∃ below owner blocks,
        ({ t with levels } : Tracker).view.OwnedBy opener below owner
          blocks := by
  induction levels with
  | nil =>
      intro _ _
      exact ⟨[], .file, [], rfl, ScopeKind.noConfusion,
        fun frame h => absurd h (by simp), rfl,
        fun _ => rfl, fun h => absurd rfl h⟩
  | cons level levels ih =>
      rintro ⟨hpath, hnested⟩ hopened
      rw [List.reverse_cons] at hopened
      cases ho : level.opening with
      | block brace =>
          obtain ⟨below, owner, blocks, h⟩ := ih hnested fun k other hk =>
            hopened k other
              (List.getElem?_append_left (List.getElem?_eq_some_iff.1 hk).1
                ▸ hk)
          have hsite :
              ({ t with levels := level :: levels } : Tracker).enclosingSite
              = ({ t with levels } : Tracker).enclosingSite := by
            simp [enclosingSite, ho, Opening.site?]
          refine ⟨below, owner, blocks ++ [level.opening.frame], ?_,
            h.noBlock, ?_, ?_, ?_, ?_⟩
          · show ({ t with levels := level :: levels } : Tracker).frames = _
            rw [frames_cons, show ({ t with levels } : Tracker).frames
              = _ from h.frames, List.append_assoc, List.cons_append]
          · intro frame hframe
            rcases List.mem_append.1 hframe with hframe | hframe
            · exact h.blocks frame hframe
            · rw [List.mem_singleton.1 hframe, ho]
              rfl
          · show ({ t with levels := level :: levels } : Tracker).enclosingKind
              = _
            rw [enclosingKind, hsite]
            exact h.kind
          · exact fun hfile => hsite.trans (h.outside hfile)
          · intro hfile
            obtain ⟨site, hopener, henclosing, hwhole⟩ := h.inside hfile
            exact ⟨site, hopener, hsite.trans henclosing, hwhole⟩
      | declaration site =>
          have hsite :
              ({ t with levels := level :: levels } : Tracker).enclosingSite
              = some site := by
            simp [enclosingSite, ho, Opening.site?]
          refine ⟨({ t with levels } : Tracker).frames, level.opening.frame, [],
            frames_cons t level levels, ?_, fun frame h => absurd h (by simp),
            ?_, ?_, ?_⟩
          · rw [ho]
            exact site.kind.scopeKind_ne_block
          · show ({ t with levels := level :: levels } : Tracker).enclosingKind
              = _
            rw [enclosingKind, hsite, ho]
            rfl
          · exact fun h => absurd h level.opening.frame_kind
          · refine fun _ => ⟨site, ?_, hsite, ?_⟩
            · have hlength :
                  ({ t with levels } : Tracker).frames.length
                    = levels.length + 1 := by
                simp [Tracker.frames]
              rw [hlength, hopened levels.length level (by simp),
                Opening.shown, ho]
              rfl
            · rw [hpath site ho]
              exact (path_eq { t with levels }).symm

/-- A stack that is accounted for shows its scopes as they were opened. -/
theorem Accounted.represented {log : List (ScopeCall × List ScopeEvent)}
    (h : t.Accounted (openings log)) :
    t.view.Represented fun k => (openedAt log k).map Opening.shown where
  file := rfl
  inside frame hframe := by
    simp only [view, Tracker.frames, List.tail_cons, List.mem_map] at hframe
    obtain ⟨level, -, rfl⟩ := hframe
    exact level.opening.frame_kind
  path := rfl
  depth := t.path_length
  opened k := by
    simp only [view, Tracker.frames, openedAt, ← h.levels, ← List.map_reverse,
      List.getElem?_cons_succ, List.getElem?_map, Option.map_map]
    rfl
  owner := by
    refine exists_ownedBy t t.levels h.nested fun k level hlevel => ?_
    show ((openings log).reverse[k]?).map Opening.shown
      = some level.opening.shown
    rw [← h.levels, ← List.map_reverse, List.getElem?_map, hlevel]
    rfl

end Tracker

end Marginalia
