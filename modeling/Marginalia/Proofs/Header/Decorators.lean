/-
Decorators in front of a header.

A decorator is a sign, a dotted name and, if it has any, arguments in
parentheses. Its arguments may hold whatever a header may: commas, arrows,
keywords, further decorators. They pass through the cut for the innermost
expression first, where they count as what they are, a group whose brackets
match; and they are gone before anything looks at the expression
(`Decorators.undecorated`).

So decorators change only where a declaration starts, and this only if the
header is not cut behind them: a header that leaves a bracket open, or has a
comma outside all brackets, is analysed from there on
(`decorators_are_transparent`).
-/
import Marginalia.Proofs.Header.Argument
import Marginalia.Proofs.Header.Lists

namespace Marginalia

-- ======================================================= the grammar

/-- A word, spelled as words are. -/
structure Token.IsName (t : Token) : Prop where
  word : t.isWord = true
  spelled : isWordText t.text = true

/-- The further parts of a dotted name. -/
inductive DottedRest : List Token → Prop where
  | nil : DottedRest []
  | part {dot word : Token} {ts : List Token} (sign : dot.text = ".")
    (name : word.IsName) (more : DottedRest ts) : DottedRest (dot :: word :: ts)

/-- The arguments of a decorator: none, or a group in parentheses. -/
inductive Arguments : List Token → Prop where
  | none : Arguments []
  | group {opening closing : Token} {inner : List Token}
    (opens : opening.text = "(")
    (inside : Bracketed inner) (closes : closing.text = ")") :
    Arguments (opening :: (inner ++ [closing]))

/-- A decorator. The sign in front of the word `interface` makes none. -/
inductive Decorator : List Token → Prop where
  | mk {mark name : Token} {dotted arguments : List Token}
    (sign : mark.text = "@")
    (named : name.IsName) (free : name.text ≠ "interface")
    (rest : DottedRest dotted)
    (called : Arguments arguments) :
    Decorator (mark :: name :: (dotted ++ arguments))

/-- One decorator or more. -/
inductive Decorators : List Token → Prop where
  | one {ts : List Token} (first : Decorator ts) : Decorators ts
  | more {ts rest : List Token} (first : Decorator ts)
    (others : Decorators rest) :
    Decorators (ts ++ rest)

/-- What does not go on with a decorator that it follows. -/
def EndsDecorator (ts : List Token) : Prop :=
  ∀ t ∈ ts.head?, t.text ≠ "(" ∧ t.text ≠ "."

/-- A comma in front of which every bracket that was opened is closed. -/
def HasOuterComma (ts : List Token) : Prop :=
  ∃ front comma back,
    ts = front ++ comma :: back ∧ comma.text = "," ∧ Closed front

-- ======================================================== taking off

theorem afterDottedName_stop {ts : List Token}
    (h : ∀ t ∈ ts.head?, t.text ≠ ".") :
    afterDottedName ts = ts := by
  match ts with
  | [] | [_] => rfl
  | dot :: word :: ts =>
      have hdot : (dot.text == ".") = false := beq_false_of_ne (h dot rfl)
      rw [afterDottedName, hdot, Bool.false_and, if_neg Bool.false_ne_true]

/-- A dotted name is read to its last part. -/
theorem DottedRest.afterDottedName {dotted : List Token} (h : DottedRest dotted)
    {rest : List Token} (hrest : ∀ t ∈ rest.head?, t.text ≠ ".") :
    afterDottedName (dotted ++ rest) = rest := by
  induction h with
  | nil => exact afterDottedName_stop hrest
  | @part dot word ts sign name more ih =>
      rw [List.cons_append, List.cons_append, Marginalia.afterDottedName, sign,
        name.word]
      exact ih

/-- Arguments are taken off whole, and none where there are none. -/
theorem Arguments.skipArguments {arguments : List Token}
    (h : Arguments arguments) {rest : List Token} (hrest : EndsDecorator rest) :
    skipArguments (arguments ++ rest) = rest := by
  cases h with
  | none =>
      cases rest with
      | nil => rfl
      | cons t rest =>
          have hparen : (t.text == "(") = false :=
            beq_false_of_ne (hrest t rfl).1
          rw [List.nil_append, Marginalia.skipArguments, hparen,
            if_neg Bool.false_ne_true]
  | @group opening closing inner opens inside closes =>
      rw [List.cons_append, List.append_assoc, List.singleton_append,
        Marginalia.skipArguments, opens, if_pos (beq_self_eq_true "("),
        skipGroup, inside.afterClose closes, Option.getD_some]

/-- Behind a name stand its arguments or what ends the decorator, so no dot. -/
theorem Arguments.head_ne {arguments : List Token} (h : Arguments arguments)
    {rest : List Token} (hrest : EndsDecorator rest) :
    ∀ t ∈ (arguments ++ rest).head?, t.text ≠ "." := by
  intro t ht
  cases h with
  | none => exact (hrest t ht).2
  | group opens =>
      obtain rfl := Option.some.inj ht
      rw [opens]
      decide

/-- A decorator is taken off as it stands. -/
theorem Decorator.undecorated {rules : Rules}
    (hdecorator : rules.decorator = some "@") {ts : List Token}
    (h : Decorator ts) (atStart : Bool) {rest : List Token}
    (hrest : EndsDecorator rest) :
    rules.undecorated atStart (ts ++ rest)
      = rules.undecorated atStart rest := by
  cases h with
  | @mk mark name dotted arguments sign named free dots called =>
      have hafter : afterDecorator? (name :: (dotted ++ arguments) ++ rest)
          = some rest := by
        rw [List.cons_append, List.append_assoc, afterDecorator?,
          dots.afterDottedName (called.head_ne hrest),
          called.skipArguments hrest]
        simp [named.word, free]
      have hdecoration :
          rules.decoration? atStart mark (name :: (dotted ++ arguments) ++ rest)
          = some rest := by
        rw [Rules.decoration?, hdecorator, sign, hafter]
        rfl
      rw [List.cons_append, Rules.undecorated_skipped hdecoration]

/-- A decorator starts with its sign, which goes on with no other. -/
theorem Decorator.endsDecorator {ts : List Token} (h : Decorator ts)
    (rest : List Token) :
    EndsDecorator (ts ++ rest) := by
  cases h with
  | mk sign =>
      intro t ht
      obtain rfl := Option.some.inj ht
      rw [sign]
      decide

theorem Decorators.endsDecorator {ts : List Token} (h : Decorators ts)
    (rest : List Token) :
    EndsDecorator (ts ++ rest) := by
  cases h with
  | one first => exact first.endsDecorator rest
  | more first others =>
      rw [List.append_assoc]
      exact first.endsDecorator _

/-- Decorators are taken off, one after the other. -/
theorem Decorators.undecorated {rules : Rules}
    (hdecorator : rules.decorator = some "@") {ts : List Token}
    (h : Decorators ts) (atStart : Bool) {rest : List Token}
    (hrest : EndsDecorator rest) :
    rules.undecorated atStart (ts ++ rest)
      = rules.undecorated atStart rest := by
  induction h with
  | one first => exact first.undecorated hdecorator atStart hrest
  | more first others ih =>
      rw [List.append_assoc,
        first.undecorated hdecorator atStart (others.endsDecorator rest), ih]

-- ======================================================= the cutting

/-- A token that neither a bracket nor a comma is. -/
def Token.IsQuiet (t : Token) : Prop := t.isFlat = true ∧ t.text ≠ ","

theorem Token.IsName.isQuiet {t : Token} (h : t.IsName) : t.IsQuiet := by
  have hne : ∀ sign ∈ listSigns ++ otherSigns, t.text ≠ sign :=
    fun sign hsign => isWordText_ne h.spelled hsign
  refine ⟨Token.isFlat_iff.2 ⟨?_, ?_⟩, hne "," (by decide)⟩
  · simp [Token.opens, hne "(" (by decide), hne "[" (by decide),
      hne "\x7b" (by decide)]
  · simp [Token.closes, hne ")" (by decide), hne "]" (by decide),
      hne "\x7d" (by decide)]

/-- The dots and words of a name are neither brackets nor commas. -/
theorem DottedRest.isQuiet {dotted : List Token} (h : DottedRest dotted) :
    ∀ t ∈ dotted, t.IsQuiet := by
  induction h with
  | nil => exact fun t ht => (nomatch ht)
  | part sign name more ih =>
      refine List.forall_mem_cons.2 ⟨?_,
        List.forall_mem_cons.2 ⟨name.isQuiet, ih⟩⟩
      simp [Token.IsQuiet, Token.isFlat, Token.opens, Token.closes, sign]

/-- A run whose brackets match, without a comma outside of them. -/
structure OneArgument (ts : List Token) : Prop where
  bracketed : Bracketed ts
  commas : ∀ t ∈ topTokens 0 ts, t.text ≠ ","

/-- Two such runs are one. -/
theorem OneArgument.append {front back : List Token}
    (hfront : OneArgument front) (hback : OneArgument back) :
    OneArgument (front ++ back) where
  bracketed := hfront.bracketed.append hback.bracketed
  commas := by
    intro t ht
    rw [topTokens_append back front hfront.bracketed] at ht
    rcases List.mem_append.1 ht with ht | ht
    · exact hfront.commas t ht
    · exact hback.commas t ht

/-- So are tokens that are neither brackets nor commas. -/
theorem OneArgument.of_isQuiet {ts : List Token} (h : ∀ t ∈ ts, t.IsQuiet) :
    OneArgument ts where
  bracketed := .of_flat fun t ht => (h t ht).1
  commas := by
    intro t ht
    rw [topTokens_flat fun t ht => (h t ht).1] at ht
    exact (h t ht).2

/-- The commas of arguments stand inside their parentheses. -/
theorem Arguments.oneArgument {arguments : List Token}
    (h : Arguments arguments) :
    OneArgument arguments := by
  cases h with
  | none => exact .of_isQuiet fun t ht => (nomatch ht)
  | @group opening closing inner opens inside closes =>
      refine ⟨inside.group opens closes, fun t ht => ?_⟩
      rw [topTokens_group opens closes inside [], topTokens,
        List.mem_pair] at ht
      rcases ht with rfl | rfl
      · rw [opens]
        decide
      · rw [closes]
        decide

/-- So a decorator has no comma outside its parentheses. -/
theorem Decorator.oneArgument {ts : List Token} (h : Decorator ts) :
    OneArgument ts := by
  cases h with
  | mk sign named _ dots called =>
      rw [← List.cons_append, ← List.cons_append]
      refine OneArgument.append (.of_isQuiet ?_) called.oneArgument
      refine List.forall_mem_cons.2 ⟨?_,
        List.forall_mem_cons.2 ⟨named.isQuiet, dots.isQuiet⟩⟩
      simp [Token.IsQuiet, Token.isFlat, Token.opens, Token.closes, sign]

theorem Decorators.oneArgument {ts : List Token} (h : Decorators ts) :
    OneArgument ts := by
  induction h with
  | one first => exact first.oneArgument
  | more first others ih => exact first.oneArgument.append ih

/-- Brackets that match in front of a run leave it closed. -/
theorem Closed.behind {front back : List Token} (hfront : Bracketed front)
    (hback : Closed back) :
    Closed (front ++ back) := by
  obtain ⟨depth, hdepth⟩ := hback
  have hadd := bracketDepth_add depth hfront
  rw [Nat.zero_add] at hadd
  exact ⟨depth, by rw [bracketDepth_append, hadd, Option.bind_some, hdepth]⟩

/-- A bracket that stays open stays open to the end of the run. -/
theorem exists_open_of_not_closed {ts : List Token} (h : ¬ Closed ts) :
    ∃ front opening argument,
      ts = front ++ opening :: argument ∧ opening.opens = true
      ∧ ClosesOwn argument := by
  induction ts with
  | nil => exact absurd ⟨0, rfl⟩ h
  | cons t ts ih =>
      by_cases hrest : Closed ts
      · obtain ⟨depth, hdepth⟩ := hrest
        by_cases hle : t.depthAfter (t.depthAt 0) ≤ depth
        · obtain ⟨d, -, hd⟩ := bracketDepth_before t hle
          exact absurd ⟨d, (hd ts).trans hdepth⟩ h
        · -- only an opening bracket asks for one to close behind it
          have hopens : t.opens = true := by
            by_contra hopens
            apply hle
            simp [Token.depthAfter, Token.depthAt, hopens]
          rw [(Token.depthAfter_opens hopens 0).2] at hle
          obtain rfl : depth = 0 := by omega
          exact ⟨[], t, ts, rfl,
            hopens, by rw [ClosesOwn, hdepth]; exact Option.some_ne_none 0⟩
      · obtain ⟨front, opening, argument, rfl, hopens, howns⟩ := ih hrest
        exact ⟨t :: front, opening, argument, rfl, hopens, howns⟩

/-- A comma outside all brackets is one in front of which they are closed. -/
theorem HasOuterComma.of_topTokens {ts : List Token} {comma : Token}
    (hmem : comma ∈ topTokens 0 ts) (hcomma : comma.text = ",") :
    HasOuterComma ts := by
  have hflat : comma.isFlat = true := by
    simp [Token.isFlat, Token.opens, Token.closes, hcomma]
  obtain ⟨front, back, hsplit, depth, -, hfront⟩ := topTokens_split hflat hmem
  exact ⟨front, comma, back, hsplit, hcomma, depth, hfront⟩

/-- A header that is cut is cut in the same place with brackets that match in
front of it. -/
theorem innermost_cut {front header : List Token} (hfront : Bracketed front)
    (h : ¬ Closed header ∨ HasOuterComma header) :
    innermost false (front ++ header) = innermost false header := by
  by_cases hclosed : Closed header
  · obtain ⟨inside, comma, back, rfl, hcomma, hinside⟩ :=
      h.resolve_left (not_not_intro hclosed)
    have hwhole := Closed.behind hfront hclosed
    rw [← List.append_assoc] at hwhole ⊢
    rw [hwhole.innermost_comma (.behind hfront hinside) hcomma,
      hclosed.innermost_comma hinside hcomma]
  · obtain ⟨inside, opening, argument, rfl, hopens, howns⟩ :=
      exists_open_of_not_closed hclosed
    rw [← List.append_assoc,
      innermost_behind false (front ++ inside) hopens howns,
      innermost_behind false inside hopens howns]

/-- Decorators in front of a header that is cut nowhere stay in front of it. -/
theorem Decorators.innermost_whole {ts header : List Token} (h : Decorators ts)
    (hclosed : Closed header) (hcommas : ¬ HasOuterComma header) :
    innermost false (ts ++ header) = ts ++ header
      ∧ innermost false header = header := by
  have houter : ∀ t ∈ topTokens 0 header, t.text ≠ "," :=
    fun t ht hcomma => hcommas (.of_topTokens ht hcomma)
  refine ⟨Closed.innermost_whole (.behind h.oneArgument.bracketed hclosed)
    fun t ht => ?_, hclosed.innermost_whole houter⟩
  rw [topTokens_append header ts h.oneArgument.bracketed] at ht
  rcases List.mem_append.1 ht with ht | ht
  · exact h.oneArgument.commas t ht
  · exact houter t ht

-- ====================================================== transparency

/-- A header declares the same with decorators in front of it as without. If it
leaves no bracket open and has no comma outside all brackets, the declaration
starts with the decorators, and otherwise where it does without them. -/
theorem decorators_are_transparent {dialect : Dialect}
    (hdialect : dialect.rules.decorator = some "@") (terminator : Terminator)
    (enclosing : ScopeKind) {first : Token} {more header : List Token}
    (hdecorators : Decorators (first :: more))
    (hheader : EndsDecorator header) :
    let analyze := dialect.rules.analyzeHeader terminator enclosing
    (Closed header ∧ ¬ HasOuterComma header →
        analyze (first :: more ++ header)
          = (analyze header).map fun found =>
            { found with start := first.start })
      ∧ (¬ Closed header ∨ HasOuterComma header →
        analyze (first :: more ++ header) = analyze header) := by
  intro analyze
  have hbars : dialect.rules.barClosures = false := by
    cases dialect <;> first | rfl | cases hdialect
  constructor
  · rintro ⟨hclosed, hcommas⟩
    obtain ⟨hwhole, halone⟩ := hdecorators.innermost_whole hclosed hcommas
    have hexpr := hdecorators.undecorated hdialect true hheader
    simp only [analyze, Rules.analyzeHeader, hbars, hwhole, halone]
    cases header with
    | nil =>
        have hnothing : dialect.rules.undecorated true [] = [] := by
          rw [Rules.undecorated]
        simp only [List.cons_append] at hexpr ⊢
        simp only [hexpr, hnothing, Option.map_none]
    | cons t ts =>
        simp only [List.cons_append] at hexpr ⊢
        simp only [hexpr]
        cases dialect.rules.undecorated true (t :: ts) with
        | nil => rfl
        | cons u us =>
            simp only [Option.map_map]
            rfl
  · intro hcut
    simp only [analyze, Rules.analyzeHeader, hbars,
      innermost_cut hdecorators.oneArgument.bracketed hcut]

namespace DecoratedHeaders

def mark : Token := ⟨.punct, 0, "@"⟩

/-- The arguments of a decorator, with a comma, an arrow and a class in them. -/
def arguments : List Token :=
  [⟨.word, 6, "a"⟩, ⟨.punct, 7, ","⟩, ⟨.word, 9, "b"⟩, ⟨.operator, 11, "=>"⟩,
    ⟨.word, 14, "class"⟩, ⟨.punct, 19, "\x7b"⟩, ⟨.punct, 20, "\x7d"⟩]

/-- The rest of that decorator, and another with a dotted name. -/
def more : List Token :=
  [⟨.word, 1, "View"⟩, ⟨.punct, 5, "("⟩] ++ arguments
    ++ [⟨.punct, 21, ")"⟩, ⟨.punct, 23, "@"⟩, ⟨.word, 24, "ns"⟩,
      ⟨.punct, 26, "."⟩, ⟨.word, 27, "Bind"⟩]

theorem decorators : Decorators (mark :: more) := by
  have hspelled : ∀ word ∈ ["View", "ns", "Bind"],
      isWordText word = true := by decide +kernel
  have hinside : Bracketed arguments := by decide
  refine .more (.mk rfl ⟨rfl, hspelled _ ?_⟩ ?_ .nil (.group rfl hinside rfl))
    (.one (.mk rfl ⟨rfl,
      hspelled _ ?_⟩ ?_ (.part rfl ⟨rfl, hspelled _ ?_⟩ .nil) .none))
  all_goals decide

end DecoratedHeaders

open DecoratedHeaders in
/-- A decorated class starts with its decorators, a callback behind them where
it stands. -/
theorem decorated_class_and_callback :
    Dialect.typescript.rules.analyzeHeader .body .file
        (codeTokens 0 "@View(a, b => class\x7b\x7d) @ns.Bind class A".toList)
        = some ⟨.classLike, "A", 0⟩
      ∧ Dialect.typescript.rules.analyzeHeader .body .file
        (codeTokens 0
          "@View(a, b => class\x7b\x7d) @ns.Bind on(x, function f()".toList)
        = some ⟨.function, "f", 38⟩ := by
  have hclass : codeTokens 0
      "@View(a, b => class\x7b\x7d) @ns.Bind class A".toList
      = mark :: more ++ [⟨.word, 32, "class"⟩, ⟨.word, 38, "A"⟩] := by
    decide +kernel
  have hcallback : codeTokens 0
      "@View(a, b => class\x7b\x7d) @ns.Bind on(x, function f()".toList
      = mark :: more ++ [⟨.word, 32, "on"⟩, ⟨.punct, 34, "("⟩, ⟨.word, 35, "x"⟩,
        ⟨.punct, 36, ","⟩, ⟨.word, 38, "function"⟩, ⟨.word, 47, "f"⟩,
        ⟨.punct, 48, "("⟩, ⟨.punct, 49, ")"⟩] := by
    decide +kernel
  constructor
  · have hcommas : ¬ HasOuterComma [⟨.word, 32, "class"⟩,
        ⟨.word, 38, "A"⟩] := by
      rintro ⟨front, comma, back, hsplit, hcomma, -⟩
      have hmem : comma ∈ front ++ comma :: back := by simp
      rw [← hsplit, List.mem_pair] at hmem
      rcases hmem with rfl | rfl <;> exact absurd hcomma (by decide)
    rw [hclass, (decorators_are_transparent rfl .body .file decorators
      (by simp [EndsDecorator])).1 ⟨⟨0, by decide⟩, hcommas⟩]
    decide +kernel
  · rw [hcallback, (decorators_are_transparent rfl .body .file decorators
      (by simp [EndsDecorator])).2 (.inl ?_)]
    · decide +kernel
    · rintro ⟨depth, hdepth⟩
      simp [bracketDepth, Token.opens, Token.closes] at hdepth

end Marginalia
