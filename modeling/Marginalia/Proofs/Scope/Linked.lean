/-
The stack of scopes in linked form.

A tracker here keeps its scopes as they were opened and reads path, kind and
declaration off them whenever they are asked for. They can also be kept ready
(`LinkedTracker`). Each level then has a node that is linked to the node of
the level below, so that paths share what they have in common; it has the
place on the stack of its owner, the innermost level at or below it that is
no block; and its declaration is kept without a path. The path is added from
the links by whoever needs it: from the node that an event carries
(`Push.resolvedSite`), or from the node of the owner (`enclosingSite`).

Nothing in the linked form says that the links go through the levels below,
that an owner is on the stack, or that the two routes to a declaration lead
to the same path. All three hold behind every call
(`LinkedTracker.callAll_refines`): a linked tracker is at every moment the
linked form of a tracker (`Tracker.linked`), which reports the same events.
-/
import Marginalia.Proofs.Position
import Marginalia.Proofs.Scope.Stack

namespace Marginalia

-- ============================================================= nodes

/-- A scope of a path, linked to the one around it. -/
inductive PathNode where
  | root (ref : ScopeRef)
  | inside (ref : ScopeRef) (around : PathNode)
  deriving DecidableEq, Repr

namespace PathNode

/-- The elements of the path, the innermost first. -/
def upward : PathNode → List ScopeRef
  | root ref => [ref]
  | inside ref around => ref :: around.upward

/-- The elements of the path, the outermost first. -/
def refs (node : PathNode) : List ScopeRef := node.upward.reverse

/-- The node around a node. -/
def around? : PathNode → Option PathNode
  | root _ => none
  | inside _ around => some around

/-- A path is the path of the scope around it and one more element. -/
theorem refs_inside (ref : ScopeRef) (around : PathNode) :
    (inside ref around).refs = around.refs ++ [ref] := by
  rw [refs, upward, List.reverse_cons, refs]

end PathNode

/-- The declaration without the scopes around it. -/
def Site.bare (site : Site) : Site := { site with path := [] }

-- ============================================================ events

/-- A scope that was opened. -/
structure Push where
  /-- The scopes that it was opened in. -/
  depth : Nat
  frame : Frame
  /-- The declaration whose body it is, without its path. -/
  site : Option Site
  /-- Whether it stands inside the parentheses of a header. -/
  nested : Bool
  /-- The path of the scopes around it. -/
  scope : PathNode
  deriving DecidableEq, Repr

/-- The declaration whose body was opened, with its path. -/
def Push.resolvedSite (push : Push) : Option Site :=
  push.site.map fun site => { site with path := push.scope.refs }

/-- What opened the scope. -/
def Push.opening (push : Push) : Opening :=
  match push.resolvedSite with
  | some site => .declaration site
  | none => .block push.frame.start

/-- What a token does to linked scopes. -/
inductive LinkedEvent where
  | push (pushed : Push)
  | pop (depth : Nat) (frame : Frame)
  /-- The declaration has no path; `scope` is that of the scopes around. -/
  | statement (depth : Nat) (site : Option Site) (scope : PathNode)
  | directive (depth : Nat)
  deriving DecidableEq, Repr

/-- The event with the declaration's path filled in. -/
def LinkedEvent.resolved : LinkedEvent → ScopeEvent
  | .push pushed => .push pushed.depth pushed.opening pushed.nested
  | .pop depth frame => .pop depth frame
  | .statement depth site scope =>
    .statement depth (site.map fun site => { site with path := scope.refs })
  | .directive depth => .directive depth

-- =========================================================== tracker

/-- An open scope, and the header it interrupted with its open
parentheses. -/
structure LinkedLevel where
  frame : Frame
  /-- The declaration whose body it is, without its path. -/
  site : Option Site
  header : List Token
  parens : Nat
  /-- The path down to this scope. -/
  node : PathNode
  /-- The place on the stack of the innermost scope at or below this one that
  is no block. -/
  owner : Nat
  deriving DecidableEq, Repr

/-- The level of the file. -/
def LinkedLevel.file : LinkedLevel :=
  ⟨.file, none, [], 0, .root Frame.file.ref, 0⟩

/-- The scopes in linked form, and the statement being read. -/
structure LinkedTracker where
  /-- The open scopes, the file's first. -/
  levels : List LinkedLevel := [.file]
  header : List Token := []
  parens : Nat := 0
  previous : Option Token := none
  diagnostics : List Diagnostic := []
  deriving DecidableEq, Repr

namespace LinkedTracker

/-- The open scopes, the file included. -/
def depth (t : LinkedTracker) : Nat := t.levels.length

/-- The open scopes, the file first. -/
def frames (t : LinkedTracker) : List Frame := t.levels.map (·.frame)

/-- The path of the innermost scope, by its links. -/
def path (t : LinkedTracker) : ByPosition (List ScopeRef) := do
  return (← lastItem t.levels).node.refs

/-- The level at the place that the innermost one has for its owner. -/
def owner (t : LinkedTracker) : ByPosition LinkedLevel := do
  item t.levels (← lastItem t.levels).owner

/-- The kind of the owner. -/
def enclosingKind (t : LinkedTracker) : ByPosition ScopeKind := do
  return (← t.owner).frame.kind

/-- The declaration of the owner, with the path of the scopes around it. -/
def enclosingSite (t : LinkedTracker) : ByPosition (Option Site) := do
  let owner ← t.owner
  return owner.site.map fun site =>
    { site with path := (owner.node.around?.map (·.refs)).getD [] }

/-- The statement being read, on a stack of its own. -/
def statement (t : LinkedTracker) : Tracker :=
  { header := t.header
    parens := t.parens
    previous := t.previous
    diagnostics := t.diagnostics }

/-- The header with one more token. -/
def append (t : LinkedTracker) (token : Token) : LinkedTracker :=
  { t with header := (t.statement.append token).header }

/-- The tracker with one more problem. -/
def report (lines : Text.Lines) (t : LinkedTracker) (problem : Problem)
    (offset : Nat) : LinkedTracker :=
  let diagnostic := ⟨problem, offset, lines.lineOf offset⟩
  { t with diagnostics := t.diagnostics ++ [diagnostic] }

section Steps

variable (rules : Rules) (lines : Text.Lines) (t : LinkedTracker)

/-- The declaration that the header in front of a terminator makes, without
its path. -/
def declared? (terminator : Terminator) : ByPosition (Option Site) := do
  let enclosing ← t.enclosingKind
  return (rules.analyzeHeader terminator enclosing t.header).map fun found =>
    { kind := found.declarationKind enclosing
      name := found.name
      start := found.start
      line := lines.lineOf found.start
      path := [] }

/-- The declaration that the statement being read makes if it ends here. -/
def ended? : ByPosition (Option Site) :=
  if t.header.isEmpty then return none else t.declared? rules lines .statement

/-- The end of the statement being read. -/
def endStatement : ByPosition (LinkedTracker × LinkedEvent) := do
  let site ← t.ended? rules lines
  let top ← lastItem t.levels
  return ({ t with header := [], parens := 0 },
    .statement t.depth site top.node)

/-- An opening brace. What it declares owns itself, and a block has the owner
of what is below. -/
def push (token : Token) : ByPosition (LinkedTracker × List LinkedEvent) := do
  let top ← lastItem t.levels
  let site ← t.declared? rules lines .body
  let frame : Frame :=
    match site with
    | some site => ⟨site.kind.scopeKind, site.name, site.start⟩
    | none => ⟨.block, "", token.start⟩
  let level : LinkedLevel :=
    { frame
      site
      header := t.header ++ [token]
      parens := t.parens
      node := .inside frame.ref top.node
      owner := if site.isSome then t.depth else top.owner }
  let pushed : Push := ⟨t.depth, frame, site, 0 < t.parens, top.node⟩
  return ({ t with levels := t.levels ++ [level], header := [], parens := 0 },
    [.push pushed])

/-- A closing brace. The file's level stays. -/
def pop (token : Token) : ByPosition (LinkedTracker × List LinkedEvent) :=
  if t.levels.length == 1 then
    return (t.report lines .strayBrace token.start, [])
  else do
    let level ← lastItem t.levels
    let resumed := 0 < level.parens
    let popped : LinkedTracker :=
      { t with
        levels := t.levels.dropLast
        header := if resumed then level.header ++ [token] else []
        parens := if resumed then level.parens else 0 }
    return (popped, [.pop popped.depth level.frame])

/-- Reads a token that is no directive and no literal. -/
def feedCode (token : Token) : ByPosition (LinkedTracker × List LinkedEvent) :=
  if token.text == "\x7b" then t.push rules lines token
  else if token.text == "\x7d" then t.pop lines token
  else if token.text == ";" && t.parens == 0 then do
    let (ended, event) ← t.endStatement rules lines
    return (ended, [event])
  else
    return ({ t.append token with
      parens := Tracker.parensAfter t.parens token }, [])

/-- Reads a token, line breaks aside. -/
def feedToken (token : Token) : ByPosition (LinkedTracker × List LinkedEvent) :=
  let t := { t with previous := some token }
  match token.kind with
  | .directive => return ({ t with header := [] }, [.directive t.depth])
  | .literal => return (t.append token, [])
  | _ => t.feedCode rules lines token

/-- Ends the statement if a line break in front of the offset does. -/
def breakLine (offset : Nat) (next : Option String) :
    ByPosition (LinkedTracker × List LinkedEvent) :=
  if rules.newlineTerminates
      && t.statement.breaksLine rules lines offset next then do
    let (ended, event) ← t.endStatement rules lines
    return (ended, [event])
  else return (t, [])

/-- Ends the statement that the text ends in, where a line break could. -/
def flush : ByPosition (LinkedTracker × List LinkedEvent) :=
  if rules.newlineTerminates && !t.header.isEmpty && t.parens == 0
      && !rules.isDecorationOnly t.header then do
    let (ended, event) ← t.endStatement rules lines
    return (ended, [event])
  else return (t, [])

/-- Closes the scopes that are open at the end of the text, and reports them
at the innermost. The file's level stays. -/
def close (textEnd : Int) : LinkedTracker :=
  let closed := { t with levels := t.levels.take 1, header := [], parens := 0 }
  match ((t.levels.drop 1).map (·.frame)).reverse with
  | [] => closed
  | frame :: frames =>
    closed.report lines (.openScopes (frames.length + 1) textEnd frame.kind)
      frame.start

/-- The tracker after a call, and the events the call reports. -/
def call : ScopeCall → ByPosition (LinkedTracker × List LinkedEvent)
  | .feed token => do
    let (broken, breaks) ← t.breakLine rules lines token.start (some token.text)
    let (fed, events) ← broken.feedToken rules lines token
    return (fed, breaks ++ events)
  | .breakBefore offset => t.breakLine rules lines offset none
  | .flush => t.flush rules lines
  | .close textEnd => return (t.close lines textEnd, [])

/-- The tracker after all calls, and the calls, each with the events it
reports. -/
def callAll (t : LinkedTracker) :
    List ScopeCall → ByPosition
      (LinkedTracker × List (ScopeCall × List LinkedEvent))
  | [] => return (t, [])
  | call :: calls => do
    let (after, events) ← t.call rules lines call
    let (final, log) ← after.callAll calls
    return (final, (call, events) :: log)

end Steps

end LinkedTracker

-- ======================================================= linked form

/-- The node of a stack of levels, the innermost first. -/
def pathNode : List Level → PathNode
  | [] => .root Frame.file.ref
  | level :: levels => .inside level.opening.frame.ref (pathNode levels)

/-- The levels from the innermost one on that is no block. -/
def ownerLevels : List Level → List Level
  | [] => []
  | level :: levels =>
    match level.opening with
    | .declaration _ => level :: levels
    | .block _ => ownerLevels levels

/-- The innermost level of a stack in linked form, the file's if there is no
other. The place of its owner is the number of levels up to it. -/
def linkedTop (levels : List Level) : LinkedLevel :=
  { frame := (levels.head?.map (·.opening.frame)).getD .file
    site := (levels.head?.bind (·.opening.site?)).map Site.bare
    header := (levels.head?.map (·.header)).getD []
    parens := (levels.head?.map (·.parens)).getD 0
    node := pathNode levels
    owner := (ownerLevels levels).length }

/-- A stack in linked form, the file's level first. -/
def linkedLevels : List Level → List LinkedLevel
  | [] => [.file]
  | level :: levels => linkedLevels levels ++ [linkedTop (level :: levels)]

/-- The tracker in linked form. -/
def Tracker.linked (t : Tracker) : LinkedTracker :=
  { levels := linkedLevels t.levels
    header := t.header
    parens := t.parens
    previous := t.previous
    diagnostics := t.diagnostics }

/-- The links of a stack go through all its levels. -/
theorem refs_pathNode (levels : List Level) :
    (pathNode levels).refs = pathOf levels := by
  induction levels with
  | nil => rfl
  | cons level levels ih => rw [pathNode, PathNode.refs_inside, ih, pathOf_cons]

theorem linkedLevels_length (levels : List Level) :
    (linkedLevels levels).length = levels.length + 1 := by
  induction levels with
  | nil => rfl
  | cons level levels ih => rw [linkedLevels, List.length_append, ih]; rfl

/-- The level at the end of the stack. -/
theorem lastItem_linkedLevels (levels : List Level) :
    lastItem (linkedLevels levels) = .ok (linkedTop levels) := by
  cases levels with
  | nil => rfl
  | cons level levels => exact lastItem_concat (linkedLevels levels) _

/-- The frames of the linked levels are the file's and those of the levels. -/
theorem linkedLevels_frames (levels : List Level) :
    (linkedLevels levels).map (·.frame)
      = .file :: levels.reverse.map (·.opening.frame) := by
  induction levels with
  | nil => rfl
  | cons level levels ih =>
      rw [linkedLevels, List.map_append, ih, List.reverse_cons, List.map_append]
      rfl

/-- The file's level is at the bottom. -/
theorem linkedLevels_bottom (levels : List Level) :
    ∃ above, linkedLevels levels = .file :: above := by
  induction levels with
  | nil => exact ⟨[], rfl⟩
  | cons level levels ih =>
      obtain ⟨above, habove⟩ := ih
      refine ⟨above ++ [linkedTop (level :: levels)], ?_⟩
      rw [linkedLevels, habove, List.cons_append]

/-- At the place of the owner stands the innermost level that is no block. -/
theorem item_ownerLevels (levels : List Level) :
    item (linkedLevels levels) (ownerLevels levels).length
      = .ok (linkedTop (ownerLevels levels)) := by
  induction levels with
  | nil => rfl
  | cons level levels ih =>
      rw [linkedLevels, ownerLevels]
      cases level.opening with
      | declaration site =>
          have hplace :=
            item_append (linkedLevels levels) (linkedTop (level :: levels)) []
          rw [linkedLevels_length] at hplace
          exact hplace
      | block brace => exact item_append_left ih _

/-- What the owner of a stack is, by the innermost declaration on it. -/
theorem ownerLevels_cases (levels : List Level) :
    ownerLevels levels = [] ∧ levels.findSome? (·.opening.site?) = none
      ∨ ∃ site level below, ownerLevels levels = level :: below
        ∧ level.opening = .declaration site
        ∧ levels.findSome? (·.opening.site?) = some site
        ∧ (Nested levels → site.path = pathOf below) := by
  induction levels with
  | nil => exact Or.inl ⟨rfl, rfl⟩
  | cons level levels ih =>
      rw [ownerLevels, List.findSome?_cons]
      cases hopening : level.opening with
      | declaration site =>
          exact Or.inr ⟨site, level, levels, rfl, hopening, rfl,
            fun h => h.1 site hopening⟩
      | block brace =>
          rcases ih with hfile | ⟨site, owner, below, howner, hdeclared,
            hsite, hpath⟩
          · exact Or.inl hfile
          · exact Or.inr ⟨site, owner, below, howner, hdeclared, hsite,
              fun h => hpath h.2⟩

namespace Tracker

-- ============================================================= views

variable (t : Tracker)

theorem linked_frames : t.linked.frames = t.frames :=
  linkedLevels_frames t.levels

theorem linked_depth : t.linked.depth = t.depth := linkedLevels_length t.levels

/-- The links give the path of the tracker. -/
theorem linked_path : t.linked.path = .ok t.path := by
  rw [LinkedTracker.path, linked, lastItem_linkedLevels, path_eq,
    ← refs_pathNode]
  rfl

theorem linked_owner :
    t.linked.owner = .ok (linkedTop (ownerLevels t.levels)) := by
  rw [LinkedTracker.owner, linked, lastItem_linkedLevels, ← item_ownerLevels]
  rfl

/-- The owner has the kind that is looked for from the innermost level. -/
theorem linked_enclosingKind :
    t.linked.enclosingKind = .ok t.enclosingKind := by
  rw [LinkedTracker.enclosingKind, linked_owner, enclosingKind, enclosingSite]
  rcases ownerLevels_cases t.levels with
    ⟨hfile, hnone⟩ | ⟨site, level, below, howner, hdeclared, hsite, -⟩
  · rw [hfile, hnone]
    rfl
  · rw [howner, hsite]
    show Except.ok level.opening.frame.kind = _
    rw [hdeclared]
    rfl

/-- The owner has the declaration that is looked for from the innermost level,
and the links around the owner are the path it was declared with. -/
theorem linked_enclosingSite (hnested : Nested t.levels) :
    t.linked.enclosingSite = .ok t.enclosingSite := by
  rw [LinkedTracker.enclosingSite, linked_owner, enclosingSite]
  rcases ownerLevels_cases t.levels with
    ⟨hfile, hnone⟩ | ⟨site, level, below, howner, hdeclared, hsite, hpath⟩
  · rw [hfile, hnone]
    rfl
  · rw [howner, hsite]
    show Except.ok ((level.opening.site?.map Site.bare).map
      fun site => { site with path := (pathNode below).refs }) = _
    rw [hdeclared, refs_pathNode, ← hpath hnested]
    rfl

-- ============================================================= steps

/-- The declaration that a header makes, kept without its path. -/
theorem linked_declared (rules : Rules) (lines : Text.Lines)
    (terminator : Terminator) :
    t.linked.declared? rules lines terminator
      = .ok ((t.declared? rules lines terminator).map Site.bare) := by
  rw [LinkedTracker.declared?, linked_enclosingKind, declared?, Option.map_map]
  rfl

/-- With the path of the links a declaration is whole again. -/
theorem declared?_resolved (rules : Rules) (lines : Text.Lines)
    (terminator : Terminator) :
    ((t.declared? rules lines terminator).map Site.bare).map
        (fun site => { site with path := (pathNode t.levels).refs })
      = t.declared? rules lines terminator := by
  rw [refs_pathNode, ← path_eq, declared?, Option.map_map, Option.map_map]
  rfl

end Tracker

/-- A call on the linked form goes through, leaves a tracker in linked form, and
reports its events; the frame of a push is that of what it opened. -/
def Refines (x : ByPosition (LinkedTracker × List LinkedEvent)) (t : Tracker)
    (events : List ScopeEvent) : Prop :=
  ∃ reported, x = .ok (t.linked, reported) ∧ reported.map (·.resolved) = events
    ∧ ∀ pushed, .push pushed ∈ reported → pushed.frame = pushed.opening.frame

namespace Tracker

variable (rules : Rules) (lines : Text.Lines) (t : Tracker)

/-- A statement that ends without a token makes no declaration. -/
theorem linked_ended? :
    t.linked.ended? rules lines
      = .ok ((t.declared? rules lines .statement).map Site.bare) := by
  unfold LinkedTracker.ended?
  split
  · next hempty =>
    rw [declared?_nil rules lines .statement (List.isEmpty_iff.1 hempty)]
    rfl
  · exact linked_declared t rules lines .statement

/-- The end of a statement, with the links of the scopes around it. -/
theorem linked_endStatement :
    t.linked.endStatement rules lines
      = .ok ({ t with header := [], parens := 0 : Tracker }.linked,
          .statement t.depth
            ((t.declared? rules lines .statement).map Site.bare)
            (pathNode t.levels)) := by
  rw [LinkedTracker.endStatement, linked_ended?, linked_depth, linked,
    lastItem_linkedLevels]
  rfl

/-- The end of a statement, and its event. -/
theorem linked_ended :
    Refines (t.linked.endStatement rules lines >>= fun (ended, event) =>
        return (ended, [event]))
      { t with header := [], parens := 0 }
      [.statement t.depth (t.declared? rules lines .statement)] := by
  rw [linked_endStatement]
  refine ⟨[_], rfl, ?_, fun pushed h => by simp at h⟩
  rw [List.map_singleton, LinkedEvent.resolved, declared?_resolved]

theorem linked_breakLine (offset : Nat) (next : Option String) :
    Refines (t.linked.breakLine rules lines offset next)
      (t.breakLine rules lines offset next).1
      (t.breakLine rules lines offset next).2 := by
  have hbreaks : t.linked.statement.breaksLine rules lines offset next
      = t.breaksLine rules lines offset next := rfl
  rw [LinkedTracker.breakLine, breakLine, hbreaks, endStatement_eq]
  split
  · exact linked_ended rules lines t
  · exact ⟨[], rfl, rfl, fun pushed h => by cases h⟩

theorem linked_flush :
    Refines (t.linked.flush rules lines) (t.flush rules lines).1
      (t.flush rules lines).2 := by
  have hends : (rules.newlineTerminates && !t.linked.header.isEmpty
      && t.linked.parens == 0 && !rules.isDecorationOnly t.linked.header)
      = (rules.newlineTerminates && !t.header.isEmpty
        && t.parens == 0 && !rules.isDecorationOnly t.header) := rfl
  rw [LinkedTracker.flush, flush, hends, endStatement_eq]
  split
  · exact linked_ended rules lines t
  · exact ⟨[], rfl, rfl, fun pushed h => by cases h⟩

/-- An opening brace. A declaration owns its scope and a block does not. -/
theorem linked_push (token : Token) :
    Refines (t.linked.push rules lines token) (t.push rules lines token).tracker
      (t.push rules lines token).events := by
  have hresolved := declared?_resolved t rules lines .body
  have htop : lastItem t.linked.levels = .ok (linkedTop t.levels) :=
    lastItem_linkedLevels t.levels
  rw [LinkedTracker.push, linked_declared, linked_depth, htop]
  unfold push
  cases hsite : t.declared? rules lines .body with
  | none =>
      refine ⟨[_], rfl, rfl, fun pushed h => ?_⟩
      obtain rfl := LinkedEvent.push.inj (List.mem_singleton.1 h)
      rfl
  | some site =>
      have hwhole : { site.bare with path := (pathNode t.levels).refs }
          = site := by
        rw [hsite] at hresolved
        exact Option.some.inj hresolved
      refine ⟨[_], rfl, ?_, fun pushed h => ?_⟩
      · exact congrArg (fun whole =>
          [ScopeEvent.push t.depth (.declaration whole) _]) hwhole
      · obtain rfl := LinkedEvent.push.inj (List.mem_singleton.1 h)
        rfl

/-- A closing brace. Something is open but the file exactly if the tracker has
a level. -/
theorem linked_pop (token : Token) :
    Refines (t.linked.pop lines token) (t.pop lines token).tracker
      (t.pop lines token).events := by
  have hlength : t.linked.levels.length = t.levels.length + 1 :=
    linkedLevels_length t.levels
  have htop : lastItem t.linked.levels = .ok (linkedTop t.levels) :=
    lastItem_linkedLevels t.levels
  rw [LinkedTracker.pop, hlength, htop]
  unfold pop
  cases hlevels : t.levels with
  | nil => exact ⟨[], rfl, rfl, fun pushed h => by cases h⟩
  | cons level levels =>
      have hrest : t.linked.levels.dropLast = linkedLevels levels := by
        rw [linked, hlevels, linkedLevels, List.dropLast_concat]
      rw [if_neg (by simp), hrest]
      refine ⟨[.pop (linkedLevels levels).length level.opening.frame], rfl, ?_,
        fun pushed h => by simp at h⟩
      rw [List.map_singleton, LinkedEvent.resolved, linkedLevels_length]
      rfl

/-- A token joins the header. -/
theorem linked_append (token : Token) :
    t.linked.append token = (t.append token).linked := by
  simp only [LinkedTracker.append, LinkedTracker.statement, append, linked]

theorem linked_parens (parens : Nat) :
    { t.linked with parens } = { t with parens : Tracker }.linked := rfl

/-- A token that is no directive and no literal. -/
theorem linked_feedCode (token : Token) :
    Refines (t.linked.feedCode rules lines token)
      (t.feedCode rules lines token).tracker
        (t.feedCode rules lines token).events := by
  unfold LinkedTracker.feedCode feedCode
  by_cases hopens : token.text == "\x7b"
  · rw [if_pos hopens, if_pos hopens]
    exact linked_push rules lines t token
  · rw [if_neg hopens, if_neg hopens]
    by_cases hcloses : token.text == "\x7d"
    · rw [if_pos hcloses, if_pos hcloses]
      exact linked_pop lines t token
    · rw [if_neg hcloses, if_neg hcloses, endStatement_eq]
      by_cases hends : token.text == ";" && t.parens == 0
      · rw [if_pos (show (token.text == ";" && t.linked.parens == 0)
          = true from hends),
          if_pos hends]
        exact linked_ended rules lines t
      · rw [if_neg (show ¬(token.text == ";" && t.linked.parens == 0)
          = true from hends),
          if_neg hends, linked_append, linked_parens]
        exact ⟨[], rfl, rfl, fun pushed h => by cases h⟩

theorem linked_feedToken (token : Token) :
    Refines (t.linked.feedToken rules lines token)
      (t.feedToken rules lines token).tracker
        (t.feedToken rules lines token).events := by
  have hcode :=
    linked_feedCode rules lines { t with previous := some token } token
  have hjoined := linked_append { t with previous := some token } token
  unfold LinkedTracker.feedToken feedToken
  cases token.kind with
  | directive =>
      refine ⟨[.directive t.linked.depth], rfl, ?_,
        fun pushed h => by simp at h⟩
      rw [linked_depth]
      rfl
  | literal =>
      exact ⟨[], congrArg (fun joined => Except.ok (joined, [])) hjoined, rfl,
        fun pushed h => by cases h⟩
  | word | number | operator | punct => exact hcode

/-- The end of the text. The file's level is left. -/
theorem linked_close (textEnd : Int) :
    t.linked.close lines textEnd = (t.close lines textEnd).tracker.linked := by
  obtain ⟨above, habove⟩ := linkedLevels_bottom t.levels
  have hframes := linkedLevels_frames t.levels
  rw [habove, List.map_cons, List.cons.injEq] at hframes
  have hunclosed : ((t.linked.levels.drop 1).map (·.frame)).reverse
      = t.unclosed := by
    rw [linked, habove, List.drop_one, List.tail_cons, hframes.2,
      ← List.map_reverse, List.reverse_reverse]
    rfl
  have hbottom : t.linked.levels.take 1 = [.file] := by
    rw [linked, habove]
    rfl
  rw [LinkedTracker.close, close, hunclosed, hbottom]
  cases t.unclosed with
  | nil => rfl
  | cons frame frames => rfl

/-- Every call on the linked form is the call on the tracker. -/
theorem linked_call (call : ScopeCall) :
    Refines (t.linked.call rules lines call) (t.call rules lines call).1
      (t.call rules lines call).2 := by
  cases call with
  | feed token =>
      obtain ⟨breaks, hbreak, hbreaks, hnone⟩ :=
        linked_breakLine rules lines t token.start (some token.text)
      obtain ⟨events, hfeed, hevents, hpushes⟩ := linked_feedToken rules lines
        (t.breakLine rules lines token.start (some token.text)).1 token
      refine ⟨breaks ++ events, ?_, ?_, fun pushed h => ?_⟩
      · rw [LinkedTracker.call, hbreak]
        show (LinkedTracker.feedToken rules lines _ token >>= _) = _
        rw [hfeed]
        rfl
      · rw [List.map_append, hbreaks, hevents, call_feed]
      · rcases List.mem_append.1 h with h | h
        · exact hnone pushed h
        · exact hpushes pushed h
  | breakBefore offset => exact linked_breakLine rules lines t offset none
  | flush => exact linked_flush rules lines t
  | close textEnd =>
      refine ⟨[], ?_, rfl, fun pushed h => by cases h⟩
      rw [LinkedTracker.call, linked_close]
      rfl

end Tracker

-- ============================================================== runs

/-- The call with its events, their paths filled in. -/
def resolvedCall (entry : ScopeCall × List LinkedEvent) :
    ScopeCall × List ScopeEvent :=
  (entry.1, entry.2.map (·.resolved))

/-- The pushes of a log are of what they opened. -/
def TruePushes (log : List (ScopeCall × List LinkedEvent)) : Prop :=
  ∀ entry ∈ log, ∀ pushed,
    .push pushed ∈ entry.2 → pushed.frame = pushed.opening.frame

/-- Whatever a tracker is asked for, its linked form goes through all of it,
stays its linked form and reports the same. -/
theorem LinkedTracker.callAll_refines (rules : Rules) (lines : Text.Lines)
    (calls : List ScopeCall) :
    ∀ t : Tracker, ∃ log,
      t.linked.callAll rules lines calls
        = .ok ((t.callAll rules lines calls).linked, log)
        ∧ log.map resolvedCall = t.log rules lines calls ∧ TruePushes log := by
  induction calls with
  | nil =>
      intro t
      exact ⟨[], rfl, rfl, fun entry h => by cases h⟩
  | cons call calls ih =>
      intro t
      obtain ⟨events, hcall, hevents, hpushes⟩ := t.linked_call rules lines call
      obtain ⟨log, hcalls, hlog, hrest⟩ := ih (t.call rules lines call).1
      refine ⟨(call, events) :: log, ?_, ?_, ?_⟩
      · rw [LinkedTracker.callAll, hcall]
        show (LinkedTracker.callAll rules lines _ calls >>= _) = _
        rw [hcalls]
        rfl
      · rw [List.map_cons, hlog, Tracker.log, resolvedCall, hevents]
      · intro entry hentry
        rcases List.mem_cons.1 hentry with rfl | hentry
        · exact hpushes
        · exact hrest entry hentry

-- ============================================================ pushes

/-- The pushes whose scopes are open behind an event, innermost first. -/
def LinkedEvent.replay (pushes : List Push) : LinkedEvent → List Push
  | .push pushed => pushed :: pushes
  | .pop .. => pushes.tail
  | .statement .. => pushes
  | .directive _ => pushes

/-- The pushes whose scopes are open behind a call. -/
def replayPushes (pushes : List Push) : ScopeCall × List LinkedEvent → List Push
  | (.close _, _) => []
  | (_, events) => events.foldl LinkedEvent.replay pushes

/-- The pushes of a log that no pop and no closing has undone, innermost
first. -/
def openPushes (log : List (ScopeCall × List LinkedEvent)) : List Push :=
  log.foldl replayPushes []

/-- The push that opened the frame at a place of the stack, counted from the
file's, which nothing opened. -/
def pushAt (log : List (ScopeCall × List LinkedEvent)) : Nat → Option Push
  | 0 => none
  | k + 1 => (openPushes log).reverse[k]?

/-- The frame that was opened, and the declaration whose body it is. -/
def Push.shown (pushed : Push) : Frame × Option Site :=
  (pushed.frame, pushed.resolvedSite)

theorem Push.opening_shown {pushed : Push}
    (h : pushed.frame = pushed.opening.frame) :
    pushed.opening.shown = pushed.shown := by
  rw [Push.shown, h, Opening.shown, opening]
  cases pushed.resolvedSite with
  | none => rfl
  | some site => rfl

/-- With paths filled in, the same scopes are open behind events. -/
theorem replay_resolved (events : List LinkedEvent) :
    ∀ pushes : List Push,
      (events.foldl LinkedEvent.replay pushes).map (·.opening)
      = (events.map (·.resolved)).foldl ScopeEvent.replay
        (pushes.map (·.opening)) := by
  induction events with
  | nil => exact fun pushes => rfl
  | cons event events ih =>
      intro pushes
      rw [List.foldl_cons, List.map_cons, List.foldl_cons, ih]
      cases event with
      | push | statement | directive => rfl
      | pop => rw [LinkedEvent.replay, List.map_tail]; rfl

theorem replayPushes_resolved (pushes : List Push)
    (entry : ScopeCall × List LinkedEvent) :
    (replayPushes pushes entry).map (·.opening)
      = ScopeCall.replay (pushes.map (·.opening)) (resolvedCall entry) := by
  obtain ⟨call, events⟩ := entry
  cases call with
  | close => rfl
  | feed | breakBefore | flush => exact replay_resolved events pushes

/-- With paths filled in, the same scopes are open behind the calls of a log. -/
theorem openPushes_opening (log : List (ScopeCall × List LinkedEvent)) :
    (openPushes log).map (·.opening) = openings (log.map resolvedCall) := by
  have hfold : ∀ pushes : List Push,
      (log.foldl replayPushes pushes).map (·.opening)
      = (log.map resolvedCall).foldl ScopeCall.replay
        (pushes.map (·.opening)) := by
    induction log with
    | nil => exact fun pushes => rfl
    | cons entry log ih =>
        intro pushes
        rw [List.foldl_cons, List.map_cons, List.foldl_cons, ih,
          replayPushes_resolved]
  exact hfold []

/-- A push that is open behind a log is one of its events. -/
theorem mem_openPushes {log : List (ScopeCall × List LinkedEvent)}
    {pushed : Push} (h : pushed ∈ openPushes log) :
    ∃ entry ∈ log, .push pushed ∈ entry.2 := by
  have hevents : ∀ (events : List LinkedEvent) (pushes : List Push),
      pushed ∈ events.foldl LinkedEvent.replay pushes →
        pushed ∈ pushes ∨ .push pushed ∈ events := by
    intro events
    induction events with
    | nil => exact fun pushes h => Or.inl h
    | cons event events ih =>
        intro pushes h
        rcases ih _ h with h | h
        · cases event with
          | push =>
              rcases List.mem_cons.1 h with rfl | h
              · exact Or.inr List.mem_cons_self
              · exact Or.inl h
          | pop => exact Or.inl (List.mem_of_mem_tail h)
          | statement | directive => exact Or.inl h
        · exact Or.inr (List.mem_cons_of_mem event h)
  have hlog : ∀ pushes : List Push, pushed ∈ log.foldl replayPushes pushes →
      pushed ∈ pushes ∨ ∃ entry ∈ log, .push pushed ∈ entry.2 := by
    clear h
    induction log with
    | nil => exact fun pushes h => Or.inl h
    | cons entry log ih =>
        intro pushes h
        rcases ih _ h with h | ⟨other, hmem, hother⟩
        · obtain ⟨call, events⟩ := entry
          cases call with
          | close => cases h
          | feed | breakBefore | flush =>
              exact (hevents events pushes h).imp_right fun hpush =>
                ⟨_, List.mem_cons_self, hpush⟩
        · exact Or.inr ⟨other, List.mem_cons_of_mem entry hmem, hother⟩
  exact (hlog [] h).resolve_left List.not_mem_nil

/-- A place shows the push that opened its frame as what was opened there. -/
theorem pushAt_shown {log : List (ScopeCall × List LinkedEvent)}
    (htrue : TruePushes log) (k : Nat) :
    (openedAt (log.map resolvedCall) k).map Opening.shown
      = (pushAt log k).map Push.shown := by
  cases k with
  | zero => rfl
  | succ k =>
      rw [openedAt, pushAt, ← openPushes_opening, ← List.map_reverse,
        List.getElem?_map, Option.map_map]
      cases hpushed : (openPushes log).reverse[k]? with
      | none => rfl
      | some pushed =>
          have hmem := List.mem_reverse.1 (List.mem_of_getElem? hpushed)
          obtain ⟨entry, hentry, hpush⟩ := mem_openPushes hmem
          exact congrArg some
            (Push.opening_shown (htrue entry hentry pushed hpush))

-- ============================================================= views

/-- What can be seen of the scopes of a linked tracker. -/
def LinkedTracker.view (t : LinkedTracker) : ByPosition ScopeView := do
  return ⟨t.frames, t.depth, ← t.path, ← t.enclosingKind, ← t.enclosingSite⟩

/-- The linked form of a tracker shows what the tracker does. -/
theorem Tracker.linked_view {t : Tracker} (hnested : Nested t.levels) :
    t.linked.view = .ok t.view := by
  rw [LinkedTracker.view, linked_frames, linked_depth, linked_path,
    linked_enclosingKind, linked_enclosingSite t hnested]
  rfl

/-- Whatever calls a linked tracker was given, every access to its stack was in
range and is. Its frames are the file's and those that its pushes opened, its
path is read off them, and the kind and declaration around are those of the
innermost frame that is no block: the declaration that the push of this frame
resolves to. A tracker that looks for all this on its stack reports the same
and shows the same. -/
theorem scope_stack_follows_pushes (rules : Rules) (lines : Text.Lines)
    (calls : List ScopeCall) :
    ∃ linked log view,
      ({} : LinkedTracker).callAll rules lines calls = .ok (linked, log)
        ∧ linked.view = .ok view
        ∧ view.Represented (fun k => (pushAt log k).map Push.shown)
        ∧ log.map resolvedCall = ({} : Tracker).log rules lines calls
        ∧ view = (({} : Tracker).callAll rules lines calls).view := by
  obtain ⟨log, hcalls, hlog, htrue⟩ :=
    LinkedTracker.callAll_refines rules lines calls {}
  have haccounted := Tracker.callAll_accounted rules lines calls
  have hrepresented := haccounted.represented
  rw [← hlog, funext (pushAt_shown htrue)] at hrepresented
  exact ⟨_, log, _, hcalls, Tracker.linked_view haccounted.nested, hrepresented,
    hlog, rfl⟩

end Marginalia
