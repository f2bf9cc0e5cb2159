/-
Headers elsewhere in the text.

Reading a header looks at the kinds and texts of its tokens and never at
where they stand. So a header whose tokens are moved declares the same
thing, moved with it (`analyzeHeader_moved`). Each reader has its lemma
here, in the order of the definitions: what it gives back of the moved
tokens are moved tokens.
-/
import Marginalia.Header.Analysis

namespace Marginalia

/-- The token, `k` characters further on. -/
def Token.moved (k : Nat) (t : Token) : Token := { t with start := t.start + k }

section

variable (k : Nat)

@[simp] theorem Token.moved_text (t : Token) : (t.moved k).text = t.text := rfl

@[simp] theorem Token.moved_kind (t : Token) : (t.moved k).kind = t.kind := rfl

@[simp] theorem Token.moved_start (t : Token) :
    (t.moved k).start = t.start + k := rfl

/-- A moved token keeps its length, so it ends as much further on. -/
@[simp] theorem Token.moved_stop (t : Token) :
    (t.moved k).stop = t.stop + k := by
  simp only [stop, moved_start, moved_text]
  omega

@[simp] theorem Token.moved_isWord (t : Token) :
    (t.moved k).isWord = t.isWord := rfl

@[simp] theorem Token.moved_opens (t : Token) : (t.moved k).opens = t.opens :=
  rfl

@[simp] theorem Token.moved_closes (t : Token) :
    (t.moved k).closes = t.closes := rfl

/-- Brackets are counted by their texts, so the depths are the same. -/
@[simp] theorem Token.moved_depthAt (t : Token) (depth : Nat) :
    (t.moved k).depthAt depth = t.depthAt depth := rfl

@[simp] theorem Token.moved_depthAfter (t : Token) (depth : Nat) :
    (t.moved k).depthAfter depth = t.depthAfter depth := rfl

-- ========================================================== brackets

/-- The parts of a split, moved. -/
def movedSplit (split : List Token × Token × List Token) :
    List Token × Token × List Token :=
  (split.1.map (·.moved k), split.2.1.moved k, split.2.2.map (·.moved k))

/-- A cut at a token that `p` takes wherever it stands: the moved tokens are cut
at the same one. -/
theorem splitTop_moved {p : Option Token → Token → Bool}
    (hp : ∀ before t, p (before.map (·.moved k)) (t.moved k) = p before t)
    (ts : List Token) :
    ∀ before depth, splitTop p (before.map (·.moved k)) depth
      (ts.map (·.moved k))
      = (splitTop p before depth ts).map (movedSplit k) := by
  induction ts with
  | nil => intro before depth; rfl
  | cons t ts ih =>
      intro before depth
      rw [List.map_cons, splitTop, splitTop]
      simp only [Token.moved_depthAt, Token.moved_depthAfter, hp]
      split
      · rfl
      · have h := ih (some t) (t.depthAfter (t.depthAt depth))
        rw [Option.map_some] at h
        rw [h, Option.map_map, Option.map_map]
        rfl

/-- Texts do not move, so a cut at a text is the same cut. -/
theorem splitAtText_moved (texts : List String) (ts : List Token) :
    splitAtText texts (ts.map (·.moved k))
      = (splitAtText texts ts).map (movedSplit k) :=
  splitTop_moved k (fun _ _ => rfl) ts none 0

/-- Nor do the kinds of tokens, so a cut at a keyword is the same cut. -/
theorem splitAtKeyword_moved (keywords notAfter : List String)
    (ts : List Token) :
    splitAtKeyword keywords notAfter (ts.map (·.moved k))
      = (splitAtKeyword keywords notAfter ts).map (movedSplit k) := by
  refine splitTop_moved k (fun before t => ?_) ts none 0
  cases before <;> rfl

/-- The last token with a text is the last one wherever the tokens stand. -/
theorem splitLastText_moved (text : String) (depth : Nat) (ts : List Token) :
    splitLastText text depth (ts.map (·.moved k))
      = (splitLastText text depth ts).map fun (front, back) =>
        (front.map (·.moved k), back.map (·.moved k)) := by
  fun_induction splitLastText text depth ts with
  | case1 depth => rfl
  | case2 depth t ts front back h ih => simp [splitLastText, ih, h]
  | case3 depth t ts h h' ih =>
      simp only [List.map_cons, splitLastText, Token.moved_depthAt,
        Token.moved_depthAfter, Token.moved_text, ih, h, h', Option.map_none,
        if_true]
      rfl
  | case4 depth t ts h h' ih =>
      simp only [List.map_cons, splitLastText, Token.moved_depthAt,
        Token.moved_depthAfter, Token.moved_text, ih, h, h', Option.map_none,
        Bool.false_eq_true, if_false]

/-- A bracket is closed by the same token of the moved ones. -/
theorem afterClose_moved (depth : Nat) (ts : List Token) :
    afterClose depth (ts.map (·.moved k))
      = (afterClose depth ts).map (·.map (·.moved k)) := by
  fun_induction afterClose depth ts with
  | case1 depth => rfl
  | case2 depth t ts h ih => simpa [afterClose, h] using ih
  | case3 t ts h h' => simp [afterClose, h, h']
  | case4 t ts h h' d ih => simpa [afterClose, h, h'] using ih
  | case5 depth t ts h h' ih => simpa [afterClose, h, h'] using ih

/-- So a group of moved tokens is the group, moved. -/
theorem skipGroup_moved (ts : List Token) :
    skipGroup (ts.map (·.moved k)) = (skipGroup ts).map (·.moved k) := by
  rw [skipGroup, skipGroup, afterClose_moved]
  cases afterClose 0 ts <;> rfl

/-- An angle bracket is closed by the same token of the moved ones. -/
theorem afterAngle_moved (depth : Nat) (ts : List Token) :
    afterAngle depth (ts.map (·.moved k))
      = (afterAngle depth ts).map (·.map (·.moved k)) := by
  fun_induction afterAngle depth ts with
  | case1 depth => rfl
  | case2 depth t ts h ih => simpa [afterAngle, h] using ih
  | case3 t ts h h' => simp [afterAngle, h, h']
  | case4 t ts h h' d ih => simpa [afterAngle, h, h'] using ih
  | case5 depth t ts h h' h'' => simp [afterAngle, h, h', h'']
  | case6 depth t ts h h' h'' ih => simpa [afterAngle, h, h', h''] using ih

/-- So an angle group of moved tokens is the group, moved. -/
theorem skipAngle_moved (ts : List Token) :
    skipAngle (ts.map (·.moved k)) = (skipAngle ts).map (·.moved k) := by
  rw [skipAngle, skipAngle, afterAngle_moved]
  cases afterAngle 0 ts <;> rfl

/-- Read backwards, an angle group is opened by the same token. -/
theorem beforeAngle_moved (depth : Nat) (ts : List Token) :
    beforeAngle depth (ts.map (·.moved k))
      = (beforeAngle depth ts).map (·.map (·.moved k)) := by
  fun_induction beforeAngle depth ts with
  | case1 depth => rfl
  | case2 depth t ts h ih => simpa [beforeAngle, h] using ih
  | case3 t ts h h' => simp [beforeAngle, h, h']
  | case4 t ts h h' d ih => simpa [beforeAngle, h, h'] using ih
  | case5 depth t ts h h' ih => simpa [beforeAngle, h, h'] using ih

/-- So the tokens in front of a trailing angle group are the same ones. -/
theorem skipAngleBack_moved (ts : List Token) :
    skipAngleBack (ts.map (·.moved k))
      = (skipAngleBack ts).map (·.moved k) := by
  fun_cases skipAngleBack ts with
  | case1 => rfl
  | case2 t ts h =>
      simp only [List.map_cons, skipAngleBack, Token.moved_text, h, if_true,
        beforeAngle_moved]
      cases beforeAngle 0 ts <;> rfl
  | case3 t ts h => simp [skipAngleBack, h]

/-- The expressions that are open around the end are opened at the same
tokens. -/
theorem innermostFrom_moved (opened : List (List Token)) (ts : List Token) :
    innermostFrom (opened.map (·.map (·.moved k))) (ts.map (·.moved k))
      = (innermostFrom opened ts).map (·.map (·.moved k)) := by
  fun_induction innermostFrom opened ts with
  | case1 opened => cases opened <;> rfl
  | case2 opened t ts h ih => simpa [innermostFrom, h] using ih
  | case3 opened t ts h h' ih => simpa [innermostFrom, h, h'] using ih
  | case4 opened t ts h h' ih => simpa [innermostFrom, h, h'] using ih

/-- The last argument starts behind the same comma. -/
theorem lastArgument_moved (bars : Bool) (found : List Token) (depth : Nat)
    (inBars : Bool) (ts : List Token) :
    lastArgument bars (found.map (·.moved k)) depth inBars (ts.map (·.moved k))
      = (lastArgument bars found depth inBars ts).map (·.moved k) := by
  fun_induction lastArgument bars found depth inBars ts with
  | case1 => rfl
  | case2 found depth inBars t ts h ih => simpa [lastArgument, h] using ih
  | case3 found depth inBars t ts h h' ih =>
      simpa [lastArgument, h, h'] using ih
  | case4 found depth inBars t ts h h' hbar ih =>
      simpa [lastArgument, h, h', hbar] using ih
  | case5 found depth inBars t ts h h' hbar hcomma ih =>
      simpa [lastArgument, h, h', hbar, hcomma] using ih
  | case6 found depth inBars t ts h h' hbar hcomma ih =>
      simpa [lastArgument, h, h', hbar, hcomma] using ih

/-- So the innermost expression of a moved header is its innermost
expression, moved. -/
theorem innermost_moved (bars : Bool) (ts : List Token) :
    innermost bars (ts.map (·.moved k))
      = (innermost bars ts).map (·.moved k) := by
  have hinside : (innermostFrom [] (ts.map (·.moved k))).getD
      (ts.map (·.moved k))
      = ((innermostFrom [] ts).getD ts).map (·.moved k) := by
    have h := innermostFrom_moved k [] ts
    rw [List.map_nil] at h
    rw [h]
    cases innermostFrom [] ts <;> rfl
  unfold innermost
  rw [hinside, lastArgument_moved]

-- ======================================================= decorations

/-- A dotted name ends at the same token. -/
theorem afterDottedName_moved (ts : List Token) :
    afterDottedName (ts.map (·.moved k))
      = (afterDottedName ts).map (·.moved k) := by
  fun_induction afterDottedName ts with
  | case1 dot word ts h ih =>
      rw [List.map_cons, List.map_cons, afterDottedName]
      simp only [Token.moved_text, Token.moved_isWord, h, if_true]
      exact ih
  | case2 dot word ts h =>
      rw [List.map_cons, List.map_cons, afterDottedName]
      simp only [Token.moved_text, Token.moved_isWord, h]
      rfl
  | case3 ts h =>
      match ts, h with
      | [], _ => rfl
      | [t], _ => rfl
      | dot :: word :: rest, h => exact absurd rfl (h dot word rest)

/-- The arguments of a decorator end at the same token. -/
theorem skipArguments_moved (ts : List Token) :
    skipArguments (ts.map (·.moved k))
      = (skipArguments ts).map (·.moved k) := by
  fun_cases skipArguments ts with
  | case1 t ts h => simp [skipArguments, h, skipGroup_moved]
  | case2 t ts h => simp [skipArguments, h]
  | case3 => rfl

/-- A decorator ends at the same token, by its name and its arguments. -/
theorem afterDecorator?_moved (ts : List Token) :
    afterDecorator? (ts.map (·.moved k))
      = (afterDecorator? ts).map (·.map (·.moved k)) := by
  fun_cases afterDecorator? ts with
  | case1 word ts h => simp [afterDecorator?, h]
  | case2 word ts h h' => simp [afterDecorator?, h, h']
  | case3 word ts h h' =>
      simp [afterDecorator?, h, h', afterDottedName_moved, skipArguments_moved]
  | case4 => rfl

/-- An attribute list ends at the same token. -/
theorem afterAttribute?_moved (ts : List Token) :
    afterAttribute? (ts.map (·.moved k))
      = (afterAttribute? ts).map (·.map (·.moved k)) := by
  fun_cases afterAttribute? ts with
  | case1 bracket ts h => simp [afterAttribute?, h, skipGroup_moved]
  | case2 bracket ts h => simp [afterAttribute?, h]
  | case3 => rfl

theorem skipBang_moved (ts : List Token) :
    skipBang (ts.map (·.moved k)) = (skipBang ts).map (·.moved k) := by
  fun_cases skipBang ts with
  | case1 t ts h => simp [skipBang, h]
  | case2 t ts h => simp [skipBang, h]
  | case3 => rfl

/-- An attribute of moved tokens is recognised by the same signs. -/
theorem Rules.attribute?_moved (rules : Rules) (t : Token) (ts : List Token) :
    rules.attribute? (t.moved k) (ts.map (·.moved k))
      = (rules.attribute? t ts).map (·.map (·.moved k)) := by
  have hafter : (if (t.moved k).text == "#" then ts.map (·.moved k)
      else t.moved k :: ts.map (·.moved k))
      = (if t.text == "#" then ts else t :: ts).map (·.moved k) := by
    rw [apply_ite (List.map _)]
    rfl
  unfold attribute?
  rw [hafter, skipBang_moved, afterAttribute?_moved, apply_ite (Option.map _)]
  rfl

/-- A template parameter list ends at the same token. -/
theorem afterTemplate?_moved (t : Token) (ts : List Token) :
    afterTemplate? (t.moved k) (ts.map (·.moved k))
      = (afterTemplate? t ts).map (·.map (·.moved k)) := by
  cases ts with
  | nil => rfl
  | cons angle ts =>
      rw [List.map_cons, afterTemplate?, afterTemplate?, skipAngle_moved,
        apply_ite (Option.map _)]
      rfl

/-- So every decoration of moved tokens is one of the tokens, with the
same end. -/
theorem Rules.decoration?_moved (rules : Rules) (atStart : Bool) (t : Token)
    (ts : List Token) :
    rules.decoration? atStart (t.moved k) (ts.map (·.moved k))
      = (rules.decoration? atStart t ts).map (·.map (·.moved k)) := by
  have hdecorator : (if rules.decorator == some (t.moved k).text
        then afterDecorator? (ts.map (·.moved k)) else none)
      = (if rules.decorator == some t.text then
        afterDecorator? ts else none).map (·.map (·.moved k)) := by
    rw [afterDecorator?_moved, apply_ite (Option.map _)]
    rfl
  have hattribute : (if atStart then
      rules.attribute? (t.moved k) (ts.map (·.moved k)) else none)
      = (if atStart then rules.attribute? t ts else none).map
        (·.map (·.moved k)) := by
    rw [Rules.attribute?_moved, apply_ite (Option.map _), Option.map_none]
  unfold decoration?
  rw [hdecorator, hattribute, afterTemplate?_moved]
  simp only [Option.orElse_eq_orElse, Option.orElse_eq_or, Option.map_or]

/-- Taking all decorations off, the same tokens remain. The induction is that of
`undecorated`, one decoration or one token at a time. -/
theorem Rules.undecorated_moved (rules : Rules) (atStart : Bool)
    (ts : List Token) :
    rules.undecorated atStart (ts.map (·.moved k))
      = (rules.undecorated atStart ts).map (·.moved k) := by
  fun_induction Rules.undecorated rules atStart ts with
  | case1 atStart => rw [List.map_nil, Rules.undecorated]
  | case2 atStart t ts rest h ih =>
      have hmoved := rules.decoration?_moved k atStart t ts
      rw [h, Option.map_some] at hmoved
      rw [List.map_cons, Rules.undecorated]
      split
      · next rest' h' =>
        rw [hmoved] at h'
        injection h' with h'
        rw [← h']
        exact ih
      · next h' =>
        rw [hmoved] at h'
        cases h'
  | case3 atStart t ts h ih =>
      have hmoved := rules.decoration?_moved k atStart t ts
      rw [h, Option.map_none] at hmoved
      rw [List.map_cons, Rules.undecorated]
      split
      · next rest' h' =>
        rw [hmoved] at h'
        cases h'
      · rw [List.map_cons, ih]

/-- Modifier words are told by their texts and by what follows them. -/
theorem Rules.unmodified_moved (rules : Rules) (ts : List Token) :
    rules.unmodified (ts.map (·.moved k))
      = (rules.unmodified ts).map (·.moved k) := by
  fun_induction Rules.unmodified rules ts with
  | case1 t next ts h ih =>
      rw [List.map_cons] at ih
      rw [List.map_cons, List.map_cons, Rules.unmodified]
      have hnext : (next.moved k).followsModifier = next.followsModifier := rfl
      simp only [Token.moved_text, Token.moved_isWord, hnext, h, if_true]
      exact ih
  | case2 t next ts h =>
      rw [List.map_cons, List.map_cons, Rules.unmodified]
      have hnext : (next.moved k).followsModifier = next.followsModifier := rfl
      simp only [Token.moved_text, Token.moved_isWord, hnext, h]
      rfl
  | case3 ts h =>
      match ts, h with
      | [], _ => rfl
      | [t], _ => rfl
      | t :: next :: rest, h => exact absurd rfl (h t next rest)

/-- Whether anything but decorations is there is the same question. -/
theorem Rules.isDecorationOnly_moved (rules : Rules) (ts : List Token) :
    rules.isDecorationOnly (ts.map (·.moved k))
      = rules.isDecorationOnly ts := by
  unfold isDecorationOnly
  rw [Rules.undecorated_moved, List.all_map]
  rfl

-- ============================================================ shapes

theorem texts_moved (ts : List Token) :
    (ts.map (·.moved k)).map (·.text) = ts.map (·.text) := by
  rw [List.map_map]
  rfl

/-- A closure between bars looks the same everywhere. -/
theorem isBarClosure_moved (ts : List Token) :
    isBarClosure (ts.map (·.moved k)) = isBarClosure ts := by
  unfold isBarClosure
  rw [texts_moved]

/-- A list of captures looks the same everywhere. -/
theorem startsWithCaptures_moved (ts : List Token) :
    startsWithCaptures (ts.map (·.moved k)) = startsWithCaptures ts := by
  unfold startsWithCaptures
  rw [texts_moved]

/-- The names behind a class keyword are texts; what follows them moves. -/
theorem classNames_moved (ts : List Token) :
    classNames (ts.map (·.moved k))
      = ((classNames ts).1, (classNames ts).2.map (·.moved k)) := by
  fun_induction classNames ts with
  | case1 => rw [List.map_nil, classNames]
  | case2 t ts h ih =>
      rw [List.map_cons, classNames]
      simp only [Token.moved_text, h, if_true]
      rw [skipAngle_moved, ih]
  | case3 t ts h h' ih =>
      rw [List.map_cons, classNames]
      simp only [Token.moved_text, h, h', if_true]
      exact ih
  | case4 t ts h h' h'' =>
      rw [List.map_cons, classNames]
      simp only [Token.moved_text, Token.moved_isWord, h, h', h'', if_true]
      rfl
  | case5 t ts h h' h'' names rest hrec ih =>
      rw [List.map_cons, classNames]
      simp only [Token.moved_text, Token.moved_isWord, h, h', h'']
      rw [ih, hrec]
      rfl

/-- The name behind `for` is a text, which does not move. -/
theorem nameAfterFor?_moved (ts : List Token) :
    nameAfterFor? (ts.map (·.moved k)) = nameAfterFor? ts := by
  have hdrop : (ts.map (·.moved k)).dropWhile (·.text != "for")
      = (ts.dropWhile (·.text != "for")).map (·.moved k) := by
    rw [List.dropWhile_map]
    rfl
  unfold nameAfterFor?
  rw [hdrop]
  generalize ts.dropWhile (·.text != "for") = rest
  rcases rest with _ | ⟨_, _ | ⟨t, _⟩⟩ <;> rfl

/-- Whether a class keyword belongs to a return type is the same question. -/
theorem Rules.returnsClass_moved (rules : Rules) (keyword : Token)
    (after : List Token) (names : List String) (name : String) :
    rules.returnsClass (keyword.moved k) (after.map (·.moved k)) names name
      = rules.returnsClass keyword after names name := by
  unfold returnsClass
  rw [splitAtText_moved]
  cases splitAtText ["("] after with
  | none => rfl
  | some split =>
      have hlast : (split.1.map (·.moved k)).getLastD (keyword.moved k)
          = (split.1.getLastD keyword).moved k := by
        rw [List.getLastD_eq_getLast?, List.getLastD_eq_getLast?,
          List.getLast?_map]
        cases split.1.getLast? <;> rfl
      simp only [Option.map_some, movedSplit, hlast, Token.moved_isWord,
        Token.moved_text]

/-- Whether a class is declared without a body is the same question. -/
theorem declaresBodiless_moved (names : List String) (rest : List Token) :
    declaresBodiless names (rest.map (·.moved k))
      = declaresBodiless names rest := by
  cases rest <;> rfl

/-- A class header declares the same class. -/
theorem Rules.classShape?_moved (rules : Rules) (terminator : Terminator)
    (expr : List Token) :
    rules.classShape? terminator (expr.map (·.moved k))
      = rules.classShape? terminator expr := by
  unfold classShape?
  rw [splitAtKeyword_moved]
  cases splitAtKeyword rules.classKeywords [".", "::", "?."] expr with
  | none => rfl
  | some split =>
      obtain ⟨front, keyword, after⟩ := split
      have hdrop : (after.map (·.moved k)).dropWhile
            (fun t => rules.classKeywords.contains t.text)
          = (after.dropWhile fun t => rules.classKeywords.contains t.text).map
            (·.moved k) := by
        rw [List.dropWhile_map]
        rfl
      simp only [Option.map_some, movedSplit, hdrop, classNames_moved,
        ← List.map_cons, nameAfterFor?_moved, Rules.returnsClass_moved,
        declaresBodiless_moved]

/-- A function keyword declares the same function. -/
theorem Rules.keywordShape?_moved (rules : Rules) (expr : List Token) :
    rules.keywordShape? (expr.map (·.moved k)) = rules.keywordShape? expr := by
  unfold keywordShape?
  rw [splitAtKeyword_moved]
  cases splitAtKeyword rules.functionKeywords [".", "?."] expr with
  | none => rfl
  | some split =>
      obtain ⟨front, keyword, after⟩ := split
      simp only [Option.map_some, movedSplit, splitAtText_moved]
      cases splitAtText ["("] after with
      | none => rfl
      | some inner =>
          simp only [Option.map_some, movedSplit, ← List.map_reverse,
            skipAngleBack_moved]
          cases skipAngleBack inner.1.reverse <;> rfl

/-- The specifier of a pure method is taken off at the same token. -/
theorem dropPureSpecifier_moved (trailer : List Token) :
    dropPureSpecifier (trailer.map (·.moved k))
      = (dropPureSpecifier trailer).map (·.moved k) := by
  unfold dropPureSpecifier
  rw [← List.map_reverse]
  generalize trailer.reverse = backwards
  rcases backwards with _ | ⟨last, _ | ⟨sign, rest⟩⟩
  · rfl
  · rfl
  · simp only [List.map_cons]
    rw [← List.map_reverse, apply_ite (List.map _)]
    rfl

/-- What stands between the parameters and the terminator is admitted by
its texts. -/
theorem Rules.admitsTrailer_moved (rules : Rules) (terminator : Terminator)
    (enclosing : ScopeKind) (before : Option Token) (trailer : List Token) :
    rules.admitsTrailer terminator enclosing (before.map (·.moved k))
      (trailer.map (·.moved k))
      = rules.admitsTrailer terminator enclosing before trailer := by
  have hends : rules.endsType (before.map (·.moved k))
      = rules.endsType before := by
    cases before <;> rfl
  cases terminator with
  | body =>
      simp only [admitsTrailer, List.any_map]
      rfl
  | statement =>
      simp only [admitsTrailer, hends, dropPureSpecifier_moved, List.any_map]
      rfl

/-- A name in front of a parameter list declares the same function. -/
theorem Rules.signatureShape?_moved (rules : Rules) (terminator : Terminator)
    (enclosing : ScopeKind) (expr : List Token) :
    rules.signatureShape? terminator enclosing (expr.map (·.moved k))
      = rules.signatureShape? terminator enclosing expr := by
  unfold signatureShape?
  rw [splitAtText_moved]
  cases splitAtText ["("] expr with
  | none => rfl
  | some split =>
      obtain ⟨front, paren, parameters⟩ := split
      simp only [Option.map_some, movedSplit, ← List.map_reverse,
        skipAngleBack_moved]
      cases skipAngleBack front.reverse with
      | nil => rfl
      | cons name before =>
          have hany : ∀ p : Token → Bool, (∀ t, p (t.moved k) = p t) →
              (before.head?.map (·.moved k)).any p = before.head?.any p := by
            intro p hp
            cases before.head? with
            | none => rfl
            | some t => exact hp t
          simp only [List.map_cons, Token.moved_isWord, Token.moved_text,
            List.head?_map, hany (fun t => t.text == "new") (fun _ => rfl),
            hany (fun t => [".", "?.", "->"].contains t.text) (fun _ => rfl),
            afterClose_moved]
          cases afterClose 0 parameters with
          | none => rfl
          | some trailer =>
              simp only [Option.map_some, Rules.admitsTrailer_moved]

/-- The two sides of an arrow declare the same function. -/
theorem Rules.arrowShape?_moved (rules : Rules) (terminator : Terminator)
    (enclosing : ScopeKind) (front back : List Token) :
    rules.arrowShape? terminator enclosing (front.map (·.moved k))
      (back.map (·.moved k))
      = rules.arrowShape? terminator enclosing front back := by
  unfold arrowShape?
  cases terminator with
  | body => cases back <;> rfl
  | statement => simp only [Rules.signatureShape?_moved]

/-- So an expression has the same shape, class, function or none. -/
theorem Rules.shape?_moved (rules : Rules) (terminator : Terminator)
    (enclosing : ScopeKind) (signatures : Bool) (expr : List Token) :
    rules.shape? terminator enclosing signatures (expr.map (·.moved k))
      = rules.shape? terminator enclosing signatures expr := by
  unfold shape?
  rw [splitAtText_moved]
  cases splitAtText rules.lambdaArrows expr with
  | none =>
      simp only [Option.map_none, isBarClosure_moved, startsWithCaptures_moved,
        Rules.classShape?_moved, Rules.keywordShape?_moved,
        Rules.signatureShape?_moved]
  | some split =>
      exact Rules.arrowShape?_moved k rules terminator enclosing split.1
        split.2.2

-- ========================================================== analysis

/-- The two sides of an assignment are cut at the same sign. -/
theorem splitAssignment_moved (ts : List Token) :
    splitAssignment (ts.map (·.moved k))
      = (splitAssignment ts).map fun (left, right) =>
        (left.map (·.moved k), right.map (·.moved k)) := by
  unfold splitAssignment
  rw [splitLastText_moved]
  cases splitLastText "=" 0 ts with
  | some sides => rfl
  | none =>
      rcases ts with _ | ⟨key, _ | ⟨colon, _ | ⟨value, rest⟩⟩⟩
      · rfl
      · rfl
      · rfl
      · simp only [Option.map_none, List.map_cons]
        rw [apply_ite (Option.map _)]
        rfl

/-- The last name of a run of tokens is a text, which does not move. -/
theorem lastName_moved (ts : List Token) :
    lastName (ts.map (·.moved k)) = lastName ts := by
  induction ts with
  | nil => rfl
  | cons t ts ih =>
      rw [List.map_cons, lastName, lastName, ih]
      rfl

/-- So is the name that the left side of an assignment gives. -/
theorem assignedName_moved (left : List Token) :
    assignedName (left.map (·.moved k)) = assignedName left := by
  unfold assignedName
  rw [splitAtText_moved]
  cases splitAtText [":"] left with
  | none =>
      simp only [Option.map_none]
      rw [← List.map_reverse, lastName_moved]
  | some split =>
      simp only [Option.map_some, movedSplit]
      rw [← List.map_reverse, lastName_moved]

/-- Without its modifiers an expression declares the same thing. -/
theorem Rules.expressionShape?_moved (rules : Rules) (terminator : Terminator)
    (enclosing : ScopeKind) (signatures : Bool) (expr : List Token) :
    rules.expressionShape? terminator enclosing signatures
      (expr.map (·.moved k))
      = rules.expressionShape? terminator enclosing signatures expr := by
  unfold expressionShape?
  rw [List.isEmpty_map, Rules.unmodified_moved, Rules.shape?_moved]

/-- So an undecorated expression declares the same thing under the same name. -/
theorem Rules.declaration?_moved (rules : Rules) (terminator : Terminator)
    (enclosing : ScopeKind) (expr : List Token) :
    rules.declaration? terminator enclosing (expr.map (·.moved k))
      = rules.declaration? terminator enclosing expr := by
  unfold declaration?
  rw [splitAssignment_moved]
  cases splitAssignment expr with
  | none => simp only [Option.map_none, Rules.expressionShape?_moved]
  | some sides =>
      simp only [Option.map_some, Rules.expressionShape?_moved,
        assignedName_moved, leftFunction?]

/-- A header declares what it declares wherever it stands. -/
theorem Rules.analyzeHeader_moved (rules : Rules) (terminator : Terminator)
    (enclosing : ScopeKind) (header : List Token) :
    rules.analyzeHeader terminator enclosing (header.map (·.moved k))
      = (rules.analyzeHeader terminator enclosing header).map fun found =>
        { found with start := found.start + k } := by
  unfold analyzeHeader
  rw [innermost_moved]
  cases innermost rules.barClosures header with
  | nil => rfl
  | cons first rest =>
      simp only [List.map_cons]
      rw [← List.map_cons, Rules.undecorated_moved]
      cases rules.undecorated true (first :: rest) with
      | nil => rfl
      | cons t ts =>
          simp only [List.map_cons]
          rw [← List.map_cons, Rules.declaration?_moved, Option.map_map]
          rfl

end

end Marginalia
