/-
Signatures: words, a name and a group in parentheses.

What the group holds does not matter. It may have commas, assignments, arrows,
classes and annotations in it, but a header is cut, split and searched by what
stands outside all brackets, and there a signature has words and one pair of
parentheses. Annotations go, with whole groups, and modifiers, but never the
name: a modifier in front of a parenthesis is one.

So the name alone decides. A control word opens a plain block, and any other
word is the name of a function that starts with the first of the words
(`plain_signature_recognised_unless_control`).
-/
import Marginalia.Proofs.Header.Decorators

namespace Marginalia

-- ======================================================== signatures

/-- Words, a name and a group in parentheses whose brackets match. None of the
words declares a class, and the name does not follow the word `new`. -/
structure Signature (rules : Rules) where
  words : List Token
  called : Token
  opening : Token
  inner : List Token
  closing : Token
  words_names : ∀ t ∈ words, t.IsName
  words_free : ∀ t ∈ words, t.text ∉ rules.classKeywords := by decide
  words_last : ∀ t ∈ words.getLast?, t.text ≠ "new" := by decide
  called_name : called.IsName
  called_free : called.text ∉ rules.classKeywords := by decide
  opening_text : opening.text = "(" := by rfl
  closing_text : closing.text = ")" := by rfl
  inner_bracketed : Bracketed inner := by decide
  inner_untemplated : ∀ t ∈ inner, t.text ≠ "template" := by decide
  /-- Brackets are no words. -/
  words_flat : ∀ t ∈ opening :: (inner ++ [closing]),
    t.isWord = true → t.isFlat = true := by
    decide

namespace Signature

variable {rules : Rules} (s : Signature rules)

/-- The signature with other tokens in front of its name and in its group. -/
def expr (front parameters : List Token) : List Token :=
  front ++ s.called :: s.opening :: (parameters ++ [s.closing])

def tokens : List Token := s.expr s.words s.inner

/-- The token that the signature starts with. -/
def first : Token := s.words.headD s.called

theorem tokens_cons : ∃ rest, s.tokens = s.first :: rest := by
  unfold tokens expr first
  cases s.words with
  | nil => exact ⟨_, rfl⟩
  | cons t ts => exact ⟨_, rfl⟩

theorem opening_isWord : s.opening.isWord = false := by
  by_contra hword
  have hflat := s.words_flat s.opening List.mem_cons_self (by simpa using hword)
  simp [Token.isFlat, Token.opens, s.opening_text] at hflat

theorem closing_isWord : s.closing.isWord = false := by
  by_contra hword
  have hflat := s.words_flat s.closing (by simp) (by simpa using hword)
  simp [Token.isFlat, Token.closes, s.closing_text] at hflat

-- =========================================================== reading

section Expr

variable {s} {front parameters : List Token} (hfront : front <:+ s.words)

include hfront

/-- The words in front of the parameters are names. -/
theorem isName_front : ∀ t ∈ front ++ [s.called], t.IsName := by
  intro t ht
  rcases List.mem_append.1 ht with ht | ht
  · exact s.words_names t (hfront.subset ht)
  · rw [List.mem_singleton.1 ht]
    exact s.called_name

theorem isFlat_front : ∀ t ∈ front ++ [s.called], t.isFlat = true :=
  fun t ht => (isName_front hfront t ht).isQuiet.1

variable (hparameters : Bracketed parameters)

include hparameters

/-- A signature has matching brackets if its parameters do. -/
theorem bracketed_expr : Bracketed (s.expr front parameters) :=
  bracketed_called (isFlat_front hfront) s.opening_text hparameters
    s.closing_text nofun

/-- Outside all brackets stand the words and the parentheses. -/
theorem topTokens_expr :
    topTokens 0 (s.expr front parameters)
      = front ++ s.called :: [s.opening, s.closing] :=
  topTokens_called (isFlat_front hfront) s.opening_text hparameters
    s.closing_text nofun

/-- The only signs among them are the parentheses. -/
theorem text_ne_expr (sign : String) (hsign : sign ∈ listSigns ++ otherSigns)
    (hopening : "(" ≠ sign) (hclosing : ")" ≠ sign) :
    ∀ t ∈ topTokens 0 (s.expr front parameters), t.text ≠ sign := by
  intro t ht
  rw [topTokens_expr hfront hparameters, List.append_cons, List.mem_append,
    List.mem_pair] at ht
  rcases ht with ht | rfl | rfl
  · exact isWordText_ne (isName_front hfront t ht).spelled hsign
  · rw [s.opening_text]
    exact hopening
  · rw [s.closing_text]
    exact hclosing

/-- None of the words declares a class. -/
theorem classShape?_expr :
    rules.classShape? .body (s.expr front parameters) = none := by
  have hkeyword : ∀ t ∈ topTokens 0 (s.expr front parameters), t.isWord = true →
      t.text ∉ rules.classKeywords := by
    intro t ht hword
    simp only [topTokens_expr hfront hparameters, List.mem_append,
      List.mem_cons, List.not_mem_nil, or_false] at ht
    rcases ht with ht | rfl | rfl | rfl
    · exact s.words_free t (hfront.subset ht)
    · exact s.called_free
    · rw [s.opening_isWord] at hword
      cases hword
    · rw [s.closing_isWord] at hword
      cases hword
  rw [Rules.classShape?, splitAtKeyword_none hkeyword]

/-- A signature declares the function of that name, unless it is a keyword of a
statement. -/
theorem signatureShape?_expr (enclosing : ScopeKind) :
    rules.signatureShape? .body enclosing (s.expr front parameters)
      = if s.called.text ∈ rules.controlKeywords then none
        else some (.function, .named s.called.text) := by
  have hlast : ∀ t ∈ front.getLast?, t.text ∉ ["new", ".", "?.", "->"] := by
    intro t ht
    have hword : t ∈ s.words.getLast? := by
      obtain ⟨before, hbefore⟩ := hfront
      rw [← hbefore, List.getLast?_append, ht]
      rfl
    have hspelled := (s.words_names t (List.mem_of_mem_getLast? hword)).spelled
    have hsigns : ∀ sign ∈ [".", "?.", "->"], t.text ≠ sign := by
      intro sign hsign
      apply isWordText_ne hspelled
      revert sign
      decide
    exact List.not_mem_cons_of_ne_of_not_mem (s.words_last t hword)
      fun hmem => hsigns t.text hmem rfl
  exact Rules.signatureShape?_body enclosing (isFlat_front hfront) hlast
    s.called_name.word
    (isWordText_ne s.called_name.spelled (by decide)) s.opening_text hparameters
      s.closing_text
    nofun

/-- The name decides, whatever modifiers stand in front of it. -/
theorem declaration?_expr (h : rules.BySignature) (enclosing : ScopeKind) :
    rules.declaration? .body enclosing (s.expr front parameters)
      = if s.called.text ∈ rules.controlKeywords then none
        else some (.function, s.called.text) := by
  obtain ⟨kept, hkept, hunmodified⟩ := Rules.unmodified_append
    (rules.unmodified_called s.called s.opening_text s.opening_isWord
      (parameters ++ [s.closing]))
    front
  have hkeptFront := hkept.trans hfront
  have hassigns :=
    text_ne_expr hfront hparameters "=" (by decide) (by decide) (by decide)
  have hkey : ∀ t ∈ (s.expr front parameters).tail.head?, t.text ≠ ":" := by
    -- The second token is one of those outside all brackets.
    intro t ht
    refine text_ne_expr hfront hparameters ":" (by decide) (by decide)
      (by decide) t ?_
    have hsecond := mem_of_second ht
    rw [topTokens_expr hfront hparameters]
    simp only [List.mem_append, List.mem_cons, List.not_mem_nil,
      or_false] at hsecond ⊢
    tauto
  have harrows :=
    text_ne_expr hkeptFront hparameters "->" (by decide) (by decide) (by decide)
  have hexpr : rules.unmodified (s.expr front parameters)
      = s.expr kept parameters := hunmodified
  rw [declaration?_shape .body enclosing (by simp [expr]) hassigns hkey, hexpr,
    h.shape? .body enclosing harrows, classShape?_expr hkeptFront hparameters,
    signatureShape?_expr hkeptFront hparameters enclosing]
  split
  · rfl
  · simp [Label.resolve_named]

end Expr

-- ======================================================= decorations

/-- Decorations are taken out of the group alone. -/
theorem undecorated_tokens (h : rules.BySignature) :
    rules.undecorated true s.tokens
      = s.expr s.words (rules.undecorated false s.inner) := by
  have hnames := isName_front (List.suffix_refl s.words)
  have hsigns : ∀ t ∈ s.words ++ [s.called],
      rules.decorator ≠ some t.text ∧ t.text ∉ rules.attributeOpeners := by
    intro t ht
    refine ⟨fun hdecorator => ?_, by rw [h.attributes]; exact List.not_mem_nil⟩
    exact isWordText_ne (hnames t ht).spelled (by decide)
      (h.decorator t.text hdecorator)
  have hangles : ∀ t ∈ (s.words ++ [s.called]).tail, t.text ≠ "<" :=
    fun t ht => isWordText_ne (hnames t (List.mem_of_mem_tail ht)).spelled
      (by decide)
  have hparen : ∀ t ∈ (s.opening :: (s.inner ++ [s.closing])).head?,
      t.text ≠ "<" := by
    rintro t ⟨⟩
    rw [s.opening_text]
    decide
  have hbehind : BehindGroup [s.closing] := by
    refine ⟨⟨s.closing, [], rfl, s.closing_text, s.closing_isWord⟩,
      fun t ht => ?_⟩
    rw [List.mem_singleton.1 ht, s.closing_text]
    decide
  rw [tokens, expr, Rules.undecorated_atStart h.attributes, List.append_cons,
    Rules.undecorated_front hparen hsigns hangles,
    h.undecorated_cons (by rw [s.opening_text]; decide)
      (by rw [s.opening_text]; decide),
    Rules.undecorated_append hbehind s.inner_bracketed.closed,
    h.undecorated_cons (by rw [s.closing_text]; decide)
      (by rw [s.closing_text]; decide),
    Rules.undecorated, ← List.append_cons]
  rfl

/-- Without decorations the brackets still match. -/
theorem undecorated_bracketed (h : rules.BySignature) :
    Bracketed (rules.undecorated false s.inner) := by
  refine Rules.undecorated_depth (fun t hsign => ?_)
    (fun t ht => ?_) s.inner_untemplated s.inner_bracketed
  · exact Token.isFlat_at (h.decorator t.text hsign)
  · exact s.words_flat t (by simp [ht])

end Signature

/-- In C and Java, words, a name and a group in front of a body are a function
of that name, from the first of the words on, unless the name is a control
word; then they declare nothing. -/
theorem plain_signature_recognised_unless_control {dialect : Dialect}
    (hdialect : dialect = .c ∨ dialect = .java) (enclosing : ScopeKind)
    (s : Signature dialect.rules) :
    dialect.rules.analyzeHeader .body enclosing s.tokens
      = if s.called.text ∈ dialect.rules.controlKeywords then none
        else some ⟨.function, s.called.text, s.first.start⟩ := by
  have h := Dialect.bySignature hdialect
  have hwords := List.suffix_refl s.words
  have hbracketed : Bracketed s.tokens :=
    Signature.bracketed_expr hwords s.inner_bracketed
  have hcommas : ∀ t ∈ topTokens 0 s.tokens, t.text ≠ "," :=
    Signature.text_ne_expr hwords s.inner_bracketed "," (by decide) (by decide)
      (by decide)
  have hdeclares :=
    Signature.declaration?_expr hwords (s.undecorated_bracketed h) h enclosing
  rw [← s.undecorated_tokens h] at hdeclares
  obtain ⟨rest, hrest⟩ := s.tokens_cons
  rw [hrest] at hbracketed hcommas hdeclares ⊢
  rw [analyzeHeader_uncut h.bars .body enclosing hbracketed hcommas, hdeclares]
  split
  · rfl
  · rfl

/-- Annotations, arrows, commas and classes in the group leave the name in
place; a control word behind another one declares nothing. -/
theorem annotated_parameters_and_else_if :
    Dialect.java.rules.analyzeHeader .body .classLike
        (codeTokens 0
          "public static Set load(@A(x, y) class b, c = (d) -> e)".toList)
      = some ⟨.function, "load", 0⟩
      ∧ Dialect.c.rules.analyzeHeader .body .function
        (codeTokens 0 "else if (a = b(c, 1))".toList) = none := by
  let load : Signature Dialect.java.rules := {
    words := [⟨.word, 0, "public"⟩, ⟨.word, 7, "static"⟩, ⟨.word, 14, "Set"⟩]
    called := ⟨.word, 18, "load"⟩
    opening := ⟨.punct, 22, "("⟩
    inner :=
      [⟨.punct, 23, "@"⟩, ⟨.word, 24, "A"⟩, ⟨.punct, 25, "("⟩, ⟨.word, 26, "x"⟩,
      ⟨.punct, 27, ","⟩, ⟨.word, 29, "y"⟩, ⟨.punct, 30, ")"⟩,
      ⟨.word, 32, "class"⟩, ⟨.word, 38, "b"⟩, ⟨.punct, 39, ","⟩,
      ⟨.word, 41, "c"⟩, ⟨.punct, 43, "="⟩, ⟨.punct, 45, "("⟩, ⟨.word, 46, "d"⟩,
      ⟨.punct, 47, ")"⟩, ⟨.operator, 49, "->"⟩, ⟨.word, 52, "e"⟩]
    closing := ⟨.punct, 53, ")"⟩
    words_names :=
      fun t ht => ⟨by revert t; decide, by revert t; decide +kernel⟩
    called_name := ⟨by decide, by decide +kernel⟩ }
  let elseIf : Signature Dialect.c.rules := {
    words := [⟨.word, 0, "else"⟩]
    called := ⟨.word, 5, "if"⟩
    opening := ⟨.punct, 8, "("⟩
    inner :=
      [⟨.word, 9, "a"⟩, ⟨.punct, 11, "="⟩, ⟨.word, 13, "b"⟩, ⟨.punct, 14, "("⟩,
      ⟨.word, 15, "c"⟩, ⟨.punct, 16, ","⟩, ⟨.number, 18, "1"⟩,
      ⟨.punct, 19, ")"⟩]
    closing := ⟨.punct, 20, ")"⟩
    words_names :=
      fun t ht => ⟨by revert t; decide, by revert t; decide +kernel⟩
    called_name := ⟨by decide, by decide +kernel⟩ }
  have hload : codeTokens 0
      "public static Set load(@A(x, y) class b, c = (d) -> e)".toList
      = load.tokens := by decide +kernel
  have helse : codeTokens 0 "else if (a = b(c, 1))".toList = elseIf.tokens := by
    decide +kernel
  rw [hload, helse,
    plain_signature_recognised_unless_control (.inr rfl) .classLike load,
    plain_signature_recognised_unless_control (.inl rfl) .function elseIf]
  decide

end Marginalia
