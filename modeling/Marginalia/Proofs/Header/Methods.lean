/-
Methods with lists of type arguments and exceptions.

A method is told by the word in front of its parameters. What stands in front
of that word may lose its modifiers, and a template list altogether, and the
parameters lose their annotations; none of this touches the word, the
parentheses and what follows them. So a method whose lists have no commas is
recognised from its first token on. Of one with two type arguments or two
exceptions, what follows the last comma is analysed alone.
-/
import Marginalia.Proofs.Header.Lists

namespace Marginalia

-- =========================================================== headers

/-- The header of a method: the type that it returns, with type arguments, its
name, its parameters and the exceptions that it throws. The brackets among
the parameters match, with their decorations and without. -/
structure MethodHeader where
  returned : String
  arguments : List String
  name : String
  thrown : List String
  first : Token
  args : List Token
  called : Token
  opening : Token
  parameters : List Token
  closing : Token
  trailer : List Token
  first_face : first.face = .word returned := by rfl
  args_faces : args.map Token.face = angleList arguments := by rfl
  called_face : called.face = .word name := by rfl
  opening_face : opening.face = .sign "(" := by rfl
  parameters_bracketed : Bracketed parameters := by decide
  parameters_undecorated :
    Bracketed (Dialect.java.rules.undecorated false parameters)
  closing_face : closing.face = .sign ")" := by rfl
  trailer_faces : trailer.map Token.face = clause "throws" thrown := by rfl
  words : ∀ word ∈ returned :: name :: (arguments ++ thrown),
    isWordText word = true := by
    decide +kernel
  /-- Its name means nothing else. -/
  name_free : name ∉ Dialect.java.rules.keywords := by decide
  /-- Its types are no classes that are declared there. -/
  types_free : ∀ word ∈ returned :: (arguments ++ thrown),
    word ∉ Dialect.java.rules.classKeywords := by decide
  /-- It is no class body behind the word `new`. -/
  returns : arguments = [] → returned ≠ "new" := by decide

namespace MethodHeader

variable (m : MethodHeader)

/-- The method with other tokens in front of its name and among its
parameters. -/
def expr (front parameters : List Token) : List Token :=
  front ++ m.called :: m.opening :: (parameters ++ m.closing :: m.trailer)

/-- What stands in front of its name. -/
def front : List Token := m.first :: m.args

def tokens : List Token := m.expr m.front m.parameters

/-- The names of a method header, its own word among them. -/
def names : List String :=
  "throws" :: m.returned :: m.name :: (m.arguments ++ m.thrown)

/-- All but the parameters is a run of lists. -/
theorem run : ListRun m.names (m.front ++ m.called :: m.trailer) where
  words := by
    intro word hword
    rcases List.mem_cons.1 hword with rfl | hword
    · exact isWordText_lead (by decide)
    · exact m.words word hword
  listed := by
    intro t ht
    simp only [front, List.cons_append, List.mem_cons, List.mem_append] at ht
    rcases ht with rfl | ht | rfl | ht
    · exact m.first_face ▸ .name (by simp [names])
    · refine (angleList_listed m.arguments _ ?_).mono fun text htext => by
        simp [names, htext]
      exact m.args_faces ▸ List.mem_map_of_mem ht
    · exact m.called_face ▸ .name (by simp [names])
    · refine (clause_listed "throws" m.thrown t.face ?_).mono fun text htext =>
        ?_
      · exact m.trailer_faces ▸ List.mem_map_of_mem ht
      · rcases List.mem_cons.1 htext with rfl | htext
        · simp [names]
        · simp [names, htext]

theorem run_trailer : ListRun m.names m.trailer := m.run.subset fun t ht => by
    simp [ht]

section Expr

variable {m} {front parameters : List Token} (hfront : front <:+ m.front)
  (hparameters : Bracketed parameters)

include hfront

/-- Whatever is left in front of the name, it is a run of lists. -/
theorem run_expr : ListRun m.names (front ++ m.called :: m.trailer) := by
  refine m.run.subset fun t ht => ?_
  rcases List.mem_append.1 ht with ht | ht
  · exact List.mem_append_left _ (hfront.subset ht)
  · exact List.mem_append_right _ ht

theorem run_called : ListRun m.names (front ++ [m.called]) := by
  refine (run_expr hfront).subset fun t ht => ?_
  rw [List.append_cons]
  exact List.mem_append_left _ ht

include hparameters

/-- Outside all brackets stand the lists and the parentheses. -/
theorem topTokens_expr :
    topTokens 0 (m.expr front parameters)
      = front ++ m.called :: m.opening :: m.closing :: m.trailer :=
  topTokens_called (run_called hfront).isFlat (Token.face_sign m.opening_face).2
    hparameters (Token.face_sign m.closing_face).2 m.run_trailer.isFlat

theorem bracketed_expr : Bracketed (m.expr front parameters) :=
  bracketed_called (run_called hfront).isFlat (Token.face_sign m.opening_face).2
    hparameters (Token.face_sign m.closing_face).2 m.run_trailer.isFlat

theorem mem_topTokens_expr {t : Token}
    (ht : t ∈ topTokens 0 (m.expr front parameters)) :
    t ∈ front ++ m.called :: m.trailer ∨ t.face = .sign "("
      ∨ t.face = .sign ")" := by
  rw [topTokens_expr hfront hparameters] at ht
  simp only [List.mem_append, List.mem_cons] at ht ⊢
  rcases ht with ht | rfl | rfl | rfl | ht
  · exact .inl (.inl ht)
  · exact .inl (.inr (.inl rfl))
  · exact .inr (.inl m.opening_face)
  · exact .inr (.inr m.closing_face)
  · exact .inl (.inr (.inr ht))

/-- A sign of no list stands outside all brackets only if it is a
parenthesis. -/
theorem text_ne_expr {text : String} (hother : text ∈ otherSigns)
    (hopening : "(" ≠ text) (hclosing : ")" ≠ text) :
    ∀ t ∈ topTokens 0 (m.expr front parameters), t.text ≠ text := by
  intro t ht
  rcases mem_topTokens_expr hfront hparameters ht with ht | hface | hface
  · exact (run_expr hfront).text_ne hother t ht
  · rw [(Token.face_sign hface).2]
    exact hopening
  · rw [(Token.face_sign hface).2]
    exact hclosing

/-- None of its words declares a class. -/
theorem classShape?_expr :
    Dialect.java.rules.classShape? .body (m.expr front parameters) = none := by
  have hkeyword : ∀ t ∈ topTokens 0 (m.expr front parameters), t.isWord = true →
      t.text ∉ Dialect.java.rules.classKeywords := by
    intro t ht hword
    rcases mem_topTokens_expr hfront hparameters ht with ht | hface | hface
    · have hname := (run_expr hfront).mem_of_isWord ht hword
      simp only [names, List.mem_cons] at hname
      rcases hname with hname | hname | hname | hname
      · rw [hname]
        decide
      · exact m.types_free _ (by simp [hname])
      · rw [hname]
        exact fun hmem => m.name_free (by simp [Rules.keywords, hmem])
      · exact m.types_free _ (List.mem_cons_of_mem _ hname)
    all_goals
      rw [(Token.face_sign hface).1] at hword
      cases hword
  rw [Rules.classShape?, splitAtKeyword_none hkeyword]

omit hparameters in
/-- What stands in front of the name is a type. -/
theorem last_front {t : Token} (ht : t ∈ front.getLast?) :
    t.text ≠ "new" ∧ t.text ∉ [".", "?.", "->"] := by
  have hlast : t ∈ m.front.getLast? := by
    obtain ⟨before, hbefore⟩ := hfront
    rw [← hbefore, List.getLast?_append, ht]
    rfl
  have hface : t.face
      ∈ (.word m.returned :: angleList m.arguments).getLast? := by
    rw [← m.first_face, ← m.args_faces, ← List.map_cons, List.getLast?_map]
    exact Option.mem_map_of_mem _ hlast
  have hnew : t.text ≠ "new" := by
    by_cases hne : m.arguments = []
    · rw [hne] at hface
      rw [(Token.face_word (Option.some.inj hface).symm).2]
      exact m.returns hne
    · rw [List.getLast?_cons, angleList_getLast? hne] at hface
      rw [(Token.face_sign (Option.some.inj hface).symm).2]
      decide
  have hmem : t ∈ m.front ++ m.called :: m.trailer :=
    List.mem_append_left _ (List.mem_of_mem_getLast? hlast)
  exact ⟨hnew, m.run.text_notMem (by decide) t hmem⟩

/-- The word in front of the parameters is the name of a function. -/
theorem signatureShape?_expr (enclosing : ScopeKind) :
    Dialect.java.rules.signatureShape? .body enclosing (m.expr front parameters)
      = some (.function, .named m.name) := by
  obtain ⟨hword, htext⟩ := Token.face_word m.called_face
  have hangle : m.called.text ≠ ">" := by
    rw [htext]
    exact isWordText_ne (m.words m.name (by simp)) (by decide)
  have hcontrol : m.called.text ∉ Dialect.java.rules.controlKeywords := by
    rw [htext]
    exact fun hmem => m.name_free (by simp [Rules.keywords, hmem])
  have hlast : ∀ t ∈ front.getLast?, t.text ∉ ["new", ".", "?.", "->"] := by
    intro t ht
    obtain ⟨hnew, hmember⟩ := last_front hfront ht
    exact List.not_mem_cons_of_ne_of_not_mem hnew hmember
  have hrejects : ∀ t ∈ m.trailer, t.text ∉ trailerRejects :=
    m.run_trailer.text_notMem fun _ => List.mem_append_left _
  rw [expr, Rules.signatureShape?_body enclosing (run_called hfront).isFlat
    hlast hword hangle (Token.face_sign m.opening_face).2 hparameters
      (Token.face_sign m.closing_face).2 hrejects,
    if_neg hcontrol, htext]

theorem declaration?_expr (enclosing : ScopeKind) :
    Dialect.java.rules.declaration? .body enclosing (m.expr front parameters)
      = some (.function, m.name) := by
  have hmodifier : m.called.text ∉ Dialect.java.rules.modifierKeywords := by
    rw [(Token.face_word m.called_face).2]
    exact fun hmem => m.name_free (by simp [Rules.keywords, hmem])
  obtain ⟨kept, hkept, hunmodified⟩ := Rules.unmodified_append
    (Rules.unmodified_kept hmodifier
      (m.opening :: (parameters ++ m.closing :: m.trailer))) front
  have hkeptFront := hkept.trans hfront
  apply declaration?_unassigned
  · simp [expr]
  · exact text_ne_expr hfront hparameters (by decide) (by decide) (by decide)
  · -- The second token is one of those outside all brackets.
    intro t ht
    refine text_ne_expr hfront hparameters (by decide) (by decide)
      (by decide) t ?_
    have hsecond := mem_of_second ht
    rw [topTokens_expr hfront hparameters]
    simp only [List.mem_append, List.mem_cons, List.not_mem_nil,
      or_false] at hsecond ⊢
    tauto
  · have hexpr : Dialect.java.rules.unmodified (m.expr front parameters)
        = m.expr kept parameters := hunmodified
    rw [hexpr, Dialect.java_shape?, classShape?_expr hkeptFront hparameters,
      signatureShape?_expr hkeptFront hparameters enclosing]
    · rfl
    · exact text_ne_expr hkeptFront hparameters (by decide) (by decide)
        (by decide)

end Expr

/-- Signs of other things than decorations stay. -/
theorem undecorated_sign {t : Token} {sign : String}
    (hface : t.face = .sign sign) (hsign : sign ∉ ["@", "template"])
    (ts : List Token) :
    Dialect.java.rules.undecorated false (t :: ts)
      = t :: Dialect.java.rules.undecorated false ts := by
  rw [← (Token.face_sign hface).2] at hsign
  simp only [List.mem_cons, List.not_mem_nil, or_false, not_or] at hsign
  exact (Dialect.bySignature (.inr rfl)).undecorated_cons hsign.1 hsign.2 ts

/-- Of the parameters and what follows them, only the parameters have
decorations. -/
theorem undecorated_opening :
    Dialect.java.rules.undecorated false
        (m.opening :: (m.parameters ++ m.closing :: m.trailer))
      = m.opening :: (Dialect.java.rules.undecorated false m.parameters
        ++ m.closing :: m.trailer) := by
  have htrailer := m.run_trailer
  have hbehind : BehindGroup (m.closing :: m.trailer) := by
    obtain ⟨hword, htext⟩ := Token.face_sign m.closing_face
    refine ⟨⟨_, _, rfl, htext, hword⟩, ?_⟩
    intro t ht
    rcases List.mem_cons.1 ht with rfl | ht
    · rw [htext]
      decide
    · exact htrailer.text_ne_of_notMem (by decide)
        (m.trailer_faces ▸ sign_notMem_clause (by decide)) t ht
  rw [undecorated_sign m.opening_face (by decide),
    Rules.undecorated_append hbehind m.parameters_bracketed.closed,
    undecorated_sign m.closing_face (by decide), htrailer.undecorated_eq]
  exact fun h => sign_notMem_clause (by decide)
    (m.trailer_faces ▸ List.mem_of_mem_tail h)

/-- Decorations leave the name, the parentheses and what follows them. -/
theorem undecorated_tokens :
    ∃ front, front <:+ m.front ∧ Dialect.java.rules.undecorated true m.tokens
      = m.expr front (Dialect.java.rules.undecorated false m.parameters) := by
  have hcalled : m.called.text ≠ "<" := by
    rw [(Token.face_word m.called_face).2]
    exact isWordText_ne (m.words m.name (by simp)) (by decide)
  have hparen : ∀ ts, ∀ t ∈ (m.opening :: ts).head?, t.text ≠ "<" := by
    rintro ts t ⟨⟩
    rw [(Token.face_sign m.opening_face).2]
    decide
  by_cases htemplate : m.returned = "template" → m.arguments = []
  · refine ⟨m.front, List.suffix_refl _, ?_⟩
    have hfirst : m.first.text = "template" →
        ∀ ts, ∀ next ∈ (m.args ++ m.called :: ts).head?, next.text ≠ "<" := by
      intro htext ts next hnext
      have hargs : m.args = [] := by
        rw [← List.map_eq_nil_iff, m.args_faces,
          htemplate ((Token.face_word m.first_face).2.symm.trans htext)]
        rfl
      rw [hargs] at hnext
      cases hnext
      exact hcalled
    have hmiddle : ListRun m.names (m.args ++ [m.called]) :=
      (run_called (List.suffix_refl m.front)).subset fun t =>
        List.mem_cons_of_mem m.first
    have hangles : .sign "<"
        ∉ ((m.args ++ [m.called]).map Token.face).tail := by
      rw [List.map_append, m.args_faces]
      exact angle_notMem_tail (by simp [m.called_face])
    rw [tokens, front, expr, List.cons_append,
      m.run.undecorated_cons (by simp [front]) fun h => hfirst h _,
        List.append_cons,
      hmiddle.undecorated_append hangles (hparen _), m.undecorated_opening,
      ← List.append_cons]
    rfl
  · -- The type is a template list, and goes.
    refine ⟨[], List.nil_suffix, ?_⟩
    obtain ⟨hreturned, harguments⟩ := Classical.not_imp.1 htemplate
    have hwords : ∀ word ∈ m.arguments, isWordText word = true :=
      fun word hword => m.words word (by simp [hword])
    obtain ⟨angle, inside, hargs, hangle, hskip⟩ :=
      skipAngle_angleList harguments hwords m.args_faces
    have hlist : ∀ ts,
        Dialect.java.rules.decoration? true m.first (angle :: (inside ++ ts))
        = some ts := by
      intro ts
      rw [Rules.decoration?_template true (m.run.decorator_ne (by simp [front]))
        List.not_mem_nil ((Token.face_word m.first_face).2.trans hreturned)
          (Token.face_sign hangle).2, hskip]
    rw [tokens, front, hargs, expr, List.cons_append, List.cons_append,
      Rules.undecorated_skipped (hlist _),
      m.run.undecorated_cons (by simp) fun _ => hparen _, m.undecorated_opening]
    rfl

theorem comma_mem_run :
    .sign "," ∈ (m.front ++ m.called :: m.trailer).map Token.face
      ↔ 1 < m.arguments.length ∨ 1 < m.thrown.length := by
  simp only [front, List.map_append, List.map_cons, m.first_face, m.args_faces,
    m.called_face, m.trailer_faces]
  simp [comma_mem_angleList, comma_mem_clause]

end MethodHeader

/-- A method is recognised from its first token on exactly if what it returns
has at most one type argument and it throws at most one exception. -/
theorem method_header_recognised_iff (enclosing : ScopeKind) (m : MethodHeader)
    (hstarts : m.tokens.Pairwise fun a b => a.start < b.start) :
    Dialect.java.rules.analyzeHeader .body enclosing m.tokens
        = some ⟨.function, m.name, m.first.start⟩
      ↔ m.arguments.length ≤ 1 ∧ m.thrown.length ≤ 1 := by
  have hfront := List.suffix_refl m.front
  have htop := MethodHeader.topTokens_expr hfront m.parameters_bracketed
  have hbracketed : Bracketed m.tokens :=
    MethodHeader.bracketed_expr hfront m.parameters_bracketed
  by_cases hcommas :
    .sign "," ∈ (m.front ++ m.called :: m.trailer).map Token.face
  · -- The header is cut behind its first token.
    have hlong := m.comma_mem_run.1 hcommas
    refine ⟨fun hfound => ?_, fun hshort => by omega⟩
    obtain ⟨comma, hmem, hface⟩ := List.mem_map.1 hcommas
    have hcomma : comma ∈ topTokens 0 m.tokens := by
      rw [MethodHeader.tokens, htop]
      simp only [List.mem_append, List.mem_cons] at hmem ⊢
      tauto
    have hcut :=
      analyzeHeader_cut rfl hbracketed hcomma (Token.face_sign hface).2
        hstarts hfound
    exact absurd hcut (Nat.lt_irrefl _)
  · have hshort : m.arguments.length ≤ 1 ∧ m.thrown.length ≤ 1 := by
      rw [m.comma_mem_run] at hcommas
      omega
    refine iff_of_true ?_ hshort
    obtain ⟨kept, hkept, hundecorated⟩ := m.undecorated_tokens
    apply analyzeHeader_whole rfl hbracketed
    · intro t ht
      rcases MethodHeader.mem_topTokens_expr hfront
        m.parameters_bracketed ht with ht | hface | hface
      · exact m.run.text_ne_of_notMem (by decide) hcommas t ht
      all_goals
        rw [(Token.face_sign hface).2]
        decide
    · have hdeclares :=
        MethodHeader.declaration?_expr hkept m.parameters_undecorated enclosing
      rw [← hundecorated] at hdeclares
      exact hdeclares

/-- The brackets of an annotation leave with it. -/
theorem annotated_method_recognised :
    Dialect.java.rules.analyzeHeader .body .classLike
        (codeTokens 0 "Set<E> load(@Max(9) int n) throws Io".toList)
      = some ⟨.function, "load", 0⟩ := by
  let m : MethodHeader := {
    returned := "Set"
    arguments := ["E"]
    name := "load"
    thrown := ["Io"]
    first := ⟨.word, 0, "Set"⟩
    args := [⟨.punct, 3, "<"⟩, ⟨.word, 4, "E"⟩, ⟨.punct, 5, ">"⟩]
    called := ⟨.word, 7, "load"⟩
    opening := ⟨.punct, 11, "("⟩
    parameters :=
      [⟨.punct, 12, "@"⟩, ⟨.word, 13, "Max"⟩, ⟨.punct, 16, "("⟩,
       ⟨.number, 17, "9"⟩,
      ⟨.punct, 18, ")"⟩, ⟨.word, 20, "int"⟩, ⟨.word, 24, "n"⟩]
    closing := ⟨.punct, 25, ")"⟩
    trailer := [⟨.word, 27, "throws"⟩, ⟨.word, 34, "Io"⟩]
    parameters_undecorated :=
      bracketDepth_undecorated rfl (by decide) (by decide) (by decide) }
  have htokens : codeTokens 0 "Set<E> load(@Max(9) int n) throws Io".toList
      = m.tokens := by
    decide +kernel
  rw [htokens]
  exact (method_header_recognised_iff .classLike m (by decide)).2 (by decide)

/-- A method that returns a type of two arguments starts behind the comma
between them. -/
theorem method_of_two_arguments_cut :
    ∃ m : MethodHeader,
      m.tokens = codeTokens 0 "R<A,B> f(int x) throws E".toList
      ∧ m.first.start = 0
      ∧ Dialect.java.rules.analyzeHeader .body .classLike m.tokens
        = some ⟨.function, m.name, 4⟩ := by
  let m : MethodHeader := {
    returned := "R"
    arguments := ["A", "B"]
    name := "f"
    thrown := ["E"]
    first := ⟨.word, 0, "R"⟩
    args :=
      [⟨.punct, 1, "<"⟩, ⟨.word, 2, "A"⟩, ⟨.punct, 3, ","⟩, ⟨.word, 4, "B"⟩,
      ⟨.punct, 5, ">"⟩]
    called := ⟨.word, 7, "f"⟩
    opening := ⟨.punct, 8, "("⟩
    parameters := [⟨.word, 9, "int"⟩, ⟨.word, 13, "x"⟩]
    closing := ⟨.punct, 14, ")"⟩
    trailer := [⟨.word, 16, "throws"⟩, ⟨.word, 23, "E"⟩]
    parameters_undecorated :=
      bracketDepth_undecorated rfl (by decide) (by decide) (by decide) }
  exact ⟨m, by decide +kernel, rfl, by decide +kernel⟩

end Marginalia
