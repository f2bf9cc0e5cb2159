/-
Scopes elsewhere in the text.

Two trackers that read the same tokens at different places of their texts
stay apart by just that distance: `Tracker.Moved k l` relates a tracker to
one that is `k` characters and `l` lines further on, and every operation
keeps the relation and makes the moved events. Line numbers enter where a
declaration gets its line and where a line break ends a statement, so the
lines of the two texts must agree up to the end of the first (`LinesMoved`).

The last token read matters only inside a statement; between statements the
two trackers may have come from different ones. A directive ends in
different places when the texts end differently, and leaves no statement.
-/
import Marginalia.Proofs.Header.Moved
import Marginalia.Proofs.Scope.Origin

namespace Marginalia

-- ============================================================ moving

/-- The declaration, `k` characters and `l` lines further on. -/
def Site.moved (k l : Nat) (site : Site) : Site :=
  { site with start := site.start + k, line := site.line + l }

def Frame.moved (k : Nat) (frame : Frame) : Frame :=
  { frame with start := frame.start + k }

def Opening.moved (k l : Nat) : Opening → Opening
  | .declaration site => .declaration (site.moved k l)
  | .block brace => .block (brace + k)

def Level.moved (k l : Nat) (level : Level) : Level where
  opening := level.opening.moved k l
  header := level.header.map (·.moved k)
  parens := level.parens

def ScopeEvent.moved (k l : Nat) : ScopeEvent → ScopeEvent
  | .push depth opening nested => .push depth (opening.moved k l) nested
  | .pop depth frame => .pop depth (frame.moved k)
  | .statement depth site => .statement depth (site.map (·.moved k l))
  | .directive depth => .directive depth

section

variable {k l : Nat}

/-- A scope that is opened further on is the frame, moved. -/
@[simp] theorem Opening.moved_frame (opening : Opening) :
    (opening.moved k l).frame = opening.frame.moved k := by
  cases opening <;> rfl

@[simp] theorem Opening.moved_site? (opening : Opening) :
    (opening.moved k l).site? = opening.site?.map (·.moved k l) := by
  cases opening <;> rfl

/-- The lines of a text agree with those of another, `k` characters and `l`
lines further on, up to an offset. -/
def LinesMoved (k l limit : Nat) (lines lines' : Text.Lines) : Prop :=
  ∀ offset ≤ limit, lines'.lineOf (offset + k) = lines.lineOf offset + l

/-- Within the text, a line break stands between two places just if one did. -/
theorem LinesMoved.breakBetween {limit : Nat} {lines lines' : Text.Lines}
    (h : LinesMoved k l limit lines lines') {start stop : Nat}
    (hstart : start ≤ limit) (hstop : stop ≤ limit) :
    lines'.breakBetween (start + k) (stop + k)
      = lines.breakBetween start stop := by
  simp only [Text.Lines.breakBetween, h start hstart, h stop hstop]
  exact decide_eq_decide.2 (by omega)

/-- A tracker and one that has read the same further on. All tokens they hold
start before the limit. -/
structure Tracker.Moved (k l limit : Nat) (t t' : Tracker) : Prop where
  levels : t'.levels = t.levels.map (·.moved k l)
  header : t'.header = t.header.map (·.moved k)
  parens : t'.parens = t.parens
  previous : t.header ≠ [] → ∃ token, t.previous = some token
    ∧ t'.previous = some (token.moved k) ∧ token.stop ≤ limit
  holds : HoldsAbove (fun token => token.start ≤ limit) [] t

/-- What was read, and what was read of it further on. -/
structure Tracked.Moved (k l limit : Nat) (x x' : Tracked) : Prop where
  tracker : x.tracker.Moved k l limit x'.tracker
  events : x'.events = x.events.map (·.moved k l)

namespace Tracker.Moved

variable {limit : Nat} (rules : Rules) {lines lines' : Text.Lines}
    {t t' : Tracker}

-- ============================================================= views

theorem depth (h : t.Moved k l limit t') : t'.depth = t.depth := by
  rw [Tracker.depth, Tracker.depth, h.levels, List.length_map]

theorem path (h : t.Moved k l limit t') : t'.path = t.path := by
  rw [Tracker.path_eq, Tracker.path_eq, h.levels]
  simp only [pathOf, ← List.map_reverse, List.map_map]
  refine congrArg _ (List.map_congr_left fun level _ => ?_)
  simp only [Function.comp_apply, Level.moved, Opening.moved_frame]
  rfl

/-- The declaration around moves with the text. -/
theorem enclosingSite (h : t.Moved k l limit t') :
    t'.enclosingSite = t.enclosingSite.map (·.moved k l) := by
  rw [Tracker.enclosingSite, Tracker.enclosingSite, h.levels,
    List.findSome?_map, List.map_findSome?]
  refine congrArg (List.findSome? · t.levels) (funext fun level => ?_)
  exact Opening.moved_site? level.opening

theorem enclosingKind (h : t.Moved k l limit t') :
    t'.enclosingKind = t.enclosingKind := by
  rw [Tracker.enclosingKind, Tracker.enclosingKind, h.enclosingSite,
    Option.map_map]
  rfl

/-- The statement declares what it declares, further on. -/
theorem declared? (h : t.Moved k l limit t')
    (hlines : LinesMoved k l limit lines lines') (terminator : Terminator) :
    t'.declared? rules lines' terminator
      = (t.declared? rules lines terminator).map (·.moved k l) := by
  rw [Tracker.declared?, Tracker.declared?, h.enclosingKind, h.path, h.header,
    Rules.analyzeHeader_moved]
  cases hfound : rules.analyzeHeader terminator t.enclosingKind t.header with
  | none => rfl
  | some found =>
      obtain ⟨token, htoken, hstart⟩ := analyzeHeader_start hfound
      have hlimit : found.start ≤ limit := hstart ▸ h.holds.1 token htoken
      simp only [Option.map_some, hlines found.start hlimit]
      rfl

-- ======================================================== statements

/-- The statement is over, in both. -/
theorem cleared (h : t.Moved k l limit t') :
    Tracker.Moved k l limit { t with header := [], parens := 0 }
      { t' with header := [], parens := 0 } where
  levels := h.levels
  header := rfl
  parens := rfl
  previous hne := absurd rfl hne
  holds := h.holds.cleared

/-- A line ends a statement where it did, as far as the text goes. -/
theorem breaksLine (h : t.Moved k l limit t')
    (hlines : LinesMoved k l limit lines lines') {offset : Nat}
    (hoffset : offset ≤ limit) (next : Option String) :
    t'.breaksLine rules lines' (offset + k) next = t.breaksLine rules lines
      offset next := by
  cases hheader : t.header with
  | nil =>
      -- outside a statement nothing breaks, whatever was read last
      have hheader' : t'.header = [] := by rw [h.header, hheader, List.map_nil]
      unfold Tracker.breaksLine
      rw [hheader, hheader']
      cases t.previous <;> cases t'.previous <;> rfl
  | cons first rest =>
      obtain ⟨token, hp, hp', hstop⟩ :=
        h.previous (by rw [hheader]; exact List.cons_ne_nil _ _)
      unfold Tracker.breaksLine
      simp only [hp, hp', h.header, h.parens, List.isEmpty_map,
        Token.moved_stop, Token.moved_text, hlines.breakBetween hstop hoffset,
        Rules.isDecorationOnly_moved]

/-- A line break ends the statement of both or of none. -/
theorem breakLine (h : t.Moved k l limit t')
    (hlines : LinesMoved k l limit lines lines') {offset : Nat}
    (hoffset : offset ≤ limit) (next : Option String) :
    (t.breakLine rules lines offset next).1.Moved k l limit
        (t'.breakLine rules lines' (offset + k) next).1
      ∧ (t'.breakLine rules lines' (offset + k) next).2
        = (t.breakLine rules lines offset next).2.map (·.moved k l) := by
  unfold Tracker.breakLine
  rw [h.breaksLine rules hlines hoffset next, endStatement_eq, endStatement_eq]
  split
  · refine ⟨h.cleared, ?_⟩
    simp only [h.depth, h.declared? rules hlines]
    rfl
  · exact ⟨h, rfl⟩

/-- The end of the text ends the statement of both or of none. -/
theorem flush (h : t.Moved k l limit t')
    (hlines : LinesMoved k l limit lines lines') :
    (t.flush rules lines).1.Moved k l limit (t'.flush rules lines').1
      ∧ (t'.flush rules lines').2
        = (t.flush rules lines).2.map (·.moved k l) := by
  unfold Tracker.flush
  rw [h.header, h.parens, List.isEmpty_map, Rules.isDecorationOnly_moved,
    endStatement_eq, endStatement_eq]
  split
  · refine ⟨h.cleared, ?_⟩
    simp only [h.depth, h.declared? rules hlines]
    rfl
  · exact ⟨h, rfl⟩

-- ============================================================ tokens

/-- A token joins the statement. -/
theorem append (h : t.Moved k l limit t') {token : Token}
    (hprevious : t.previous = some token)
    (hprevious' : t'.previous = some (token.moved k))
    (hstop : token.stop ≤ limit)
    (hholds : HoldsAbove (fun token => token.start ≤ limit) []
      (t.append token)) :
    (t.append token).Moved k l limit (t'.append (token.moved k)) := by
  refine ⟨?_, ?_, ?_, fun _ => ⟨token, ?_, ?_, hstop⟩, hholds⟩
  · simp only [append_levels]
    exact h.levels
  · simp only [Tracker.append, h.header, List.map_drop, List.map_append,
      List.length_append, List.length_map, List.map_cons, List.map_nil,
      List.length_cons, List.length_nil]
  · simp only [Tracker.append, h.parens]
  · simp only [Tracker.append, hprevious]
  · simp only [Tracker.append, hprevious']

theorem withParens (h : t.Moved k l limit t') (parens : Nat) :
    Tracker.Moved k l limit { t with parens } { t' with parens } :=
  ⟨h.levels, h.header, rfl, h.previous, h.holds⟩

/-- A brace opens the same scope, moved, as its header is read the same. -/
theorem opened (h : t.Moved k l limit t')
    (hlines : LinesMoved k l limit lines lines') (token : Token) :
    t'.opened rules lines' (token.moved k)
      = (t.opened rules lines token).moved k l := by
  unfold Tracker.opened
  rw [h.declared? rules hlines]
  cases t.declared? rules lines .body <;> rfl

/-- An opening brace does the same to both trackers. What is kept of the text
then still lies within the limit. -/
theorem push (h : t.Moved k l limit t')
    (hlines : LinesMoved k l limit lines lines') (token : Token)
    (hholds : HoldsAbove (fun token => token.start ≤ limit) []
      (t.push rules lines token).tracker) :
    (t.push rules lines token).Moved k l limit
      (t'.push rules lines' (token.moved k)) := by
  have hopened : t'.opened rules lines' (token.moved k)
      = (t.opened rules lines token).moved k l := h.opened rules hlines token
  have hlevel :
      (⟨t'.opened rules lines' (token.moved k), t'.header ++ [token.moved k],
      t'.parens⟩ : Level)
      = Level.moved k l ⟨t.opened rules lines token, t.header ++ [token],
        t.parens⟩ := by
    simp only [Level.moved, hopened, h.header, h.parens, List.map_append,
      List.map_cons, List.map_nil]
  refine ⟨⟨?_, rfl, rfl, fun hne => absurd rfl hne, hholds⟩, ?_⟩
  · exact congr (congrArg List.cons hlevel) h.levels
  · have hparens := h.parens
    show [ScopeEvent.push t'.depth (t'.opened rules lines' (token.moved k))
      (0 < t'.parens)]
      = [ScopeEvent.push t.depth ((t.opened rules lines token).moved k l)
        (0 < t.parens)]
    rw [hopened, h.depth, hparens]

theorem pop (h : t.Moved k l limit t') (token : Token)
    (hprevious : t.previous = some token)
    (hprevious' : t'.previous = some (token.moved k))
    (hstop : token.stop ≤ limit)
    (hholds : HoldsAbove (fun token => token.start ≤ limit) []
      (t.pop lines token).tracker) :
    (t.pop lines token).Moved k l limit (t'.pop lines' (token.moved k)) := by
  unfold Tracker.pop at hholds ⊢
  have hlevels := h.levels
  cases hl : t.levels with
  | nil =>
      rw [hl, List.map_nil] at hlevels
      rw [hlevels]
      rw [hl] at hholds
      refine ⟨⟨?_, h.header, h.parens, h.previous, hholds⟩, rfl⟩
      simp only [Tracker.report, hlevels, hl, List.map_nil]
  | cons level levels =>
      rw [hl, List.map_cons] at hlevels
      rw [hlevels]
      rw [hl] at hholds
      have hparens : (Level.moved k l level).parens = level.parens := rfl
      simp only [hparens] at hholds ⊢
      by_cases hp : 0 < level.parens
      · simp only [hp, if_true] at hholds ⊢
        refine ⟨⟨rfl, ?_, rfl, fun _ => ⟨token, hprevious, hprevious', hstop⟩,
          hholds⟩, ?_⟩
        · simp only [Level.moved, List.map_append, List.map_cons, List.map_nil]
        · simp only [Tracker.depth, List.length_map, Level.moved,
            Opening.moved_frame]
          rfl
      · simp only [hp, if_false] at hholds ⊢
        refine ⟨⟨rfl, rfl, rfl, fun hne => absurd rfl hne, hholds⟩, ?_⟩
        simp only [Tracker.depth, List.length_map, Level.moved,
          Opening.moved_frame]
        rfl

/-- The trackers once they have noted the token they read. -/
theorem noted (h : t.Moved k l limit t') (token : Token)
    (hstop : token.stop ≤ limit) :
    Tracker.Moved k l limit { t with previous := some token }
      { t' with previous := some (token.moved k) } :=
  ⟨h.levels, h.header, h.parens, fun _ => ⟨token, rfl, rfl, hstop⟩, h.holds⟩

/-- So does any token of code, brace or not. -/
theorem feedCode (h : t.Moved k l limit t')
    (hlines : LinesMoved k l limit lines lines') {token : Token}
    (hprevious : t.previous = some token)
    (hprevious' : t'.previous = some (token.moved k))
    (hstop : token.stop ≤ limit)
    (hholds : HoldsAbove (fun token => token.start ≤ limit) []
      (t.feedCode rules lines token).tracker) :
    (t.feedCode rules lines token).Moved k l limit
      (t'.feedCode rules lines' (token.moved k)) := by
  unfold Tracker.feedCode at hholds ⊢
  simp only [Token.moved_text]
  by_cases hopens : (token.text == "\x7b") = true
  · simp only [hopens, if_true] at hholds ⊢
    exact h.push rules hlines token hholds
  · by_cases hcloses : (token.text == "\x7d") = true
    · simp only [hopens, hcloses, Bool.false_eq_true, if_true,
        if_false] at hholds ⊢
      exact h.pop token hprevious hprevious' hstop hholds
    · by_cases hends : (token.text == ";" && t.parens == 0) = true
      · simp only [hopens, hcloses, h.parens, hends, Bool.false_eq_true,
          if_true, if_false, endStatement_eq] at hholds ⊢
        refine ⟨h.cleared, ?_⟩
        simp only [h.depth, h.declared? rules hlines]
        rfl
      · simp only [hopens, hcloses, h.parens, hends, Bool.false_eq_true,
          if_false] at hholds ⊢
        have happended : HoldsAbove (fun token => token.start ≤ limit) []
            (t.append token) := by
          simpa only [HoldsAbove] using hholds
        exact ⟨(h.append hprevious hprevious' hstop happended).withParens _,
          rfl⟩

/-- A token, line breaks aside. -/
theorem feedToken (h : t.Moved k l limit t')
    (hlines : LinesMoved k l limit lines lines') {token : Token}
    (hstart : token.start ≤ limit) (hstop : token.stop ≤ limit) :
    (t.feedToken rules lines token).Moved k l limit
      (t'.feedToken rules lines' (token.moved k)) := by
  have hholds : HoldsAbove (fun token => token.start ≤ limit) []
      (t.feedToken rules lines token).tracker :=
    (feedToken_step rules lines t token).holdsAbove hstart
      List.nil_suffix h.holds
  have hnoted := h.noted token hstop
  unfold Tracker.feedToken at hholds ⊢
  rw [Token.moved_kind]
  cases hk : token.kind with
  | directive =>
      simp only [hk] at hholds
      refine ⟨⟨h.levels, rfl, h.parens, fun hne => absurd rfl hne, hholds⟩, ?_⟩
      simp only [Tracker.depth, h.levels, List.length_map]
      rfl
  | literal =>
      simp only [hk] at hholds
      exact ⟨hnoted.append rfl rfl hstop hholds, rfl⟩
  | word | number | operator | punct =>
      simp only [hk] at hholds
      exact hnoted.feedCode rules hlines rfl rfl hstop hholds

/-- A token, after the line break in front of it. -/
theorem feed (h : t.Moved k l limit t')
    (hlines : LinesMoved k l limit lines lines') {token : Token}
    (hstart : token.start ≤ limit) (hstop : token.stop ≤ limit) :
    (t.feed rules lines token).Moved k l limit
      (t'.feed rules lines' (token.moved k)) := by
  obtain ⟨hbroken, hbreaks⟩ := h.breakLine rules hlines hstart (some token.text)
  have hfed := hbroken.feedToken rules hlines hstart hstop
  refine ⟨hfed.tracker, ?_⟩
  simp only [Tracker.feed_eq, Token.moved_start, Token.moved_text,
    List.map_append]
  rw [hbreaks, hfed.events]

/-- A directive that ends elsewhere, where line breaks end no statement. -/
theorem feed_directive (h : t.Moved k l limit t')
    (hbreaks : rules.newlineTerminates = false) {token token' : Token}
    (hkind : token.kind = .directive) (hkind' : token'.kind = .directive)
    (hstart : token.start ≤ limit) :
    (t.feed rules lines token).Moved k l limit
      (t'.feed rules lines' token') := by
  have hholds : HoldsAbove (fun token => token.start ≤ limit) []
      (t.feedToken rules lines token).tracker :=
    (feedToken_step rules lines t token).holdsAbove hstart
      List.nil_suffix h.holds
  have hno : ∀ (s : Tracker) (lines : Text.Lines) (offset : Nat)
      (next : Option String),
      s.breakLine rules lines offset next = (s, []) := by
    intro s lines offset next
    simp [Tracker.breakLine, hbreaks]
  simp only [Tracker.feed_eq, hno, Tracker.feedToken, hkind, hkind'] at hholds ⊢
  refine ⟨⟨h.levels, rfl, h.parens, fun hne => absurd rfl hne, hholds⟩, ?_⟩
  simp only [Tracker.depth, h.levels, List.length_map]
  rfl

end Tracker.Moved

end

end Marginalia
