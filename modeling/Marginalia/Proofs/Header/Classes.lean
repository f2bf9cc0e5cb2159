/-
Classes with lists of type parameters and interfaces.

The names of a class are read behind its keyword, its type parameters passed
over, so a class with short lists is recognised as it is. Of one with two
type parameters or two interfaces, what follows the last comma is analysed
alone. The word `template` with an angle list is a decoration in every
dialect, so a class of that name has no name left.
-/
import Marginalia.Proofs.Header.Lists
import Mathlib.Data.List.Chain

namespace Marginalia

/-- A class with its type parameters and interfaces. -/
def classHeader (name : String) (types interfaces : List String) : List Face :=
  .word "class" :: .word name
    :: (angleList types ++ clause "implements" interfaces)

/-- Type parameters are passed over. -/
theorem classNames_angleList {names : List String}
    (hnames : ∀ name ∈ names, isWordText name = true) {args : List Token}
    (hargs : args.map Token.face = angleList names) (back : List Token) :
    classNames (args ++ back) = classNames back := by
  by_cases hne : names = []
  · subst hne
    cases List.map_eq_nil_iff.1 hargs
    rfl
  · obtain ⟨angle, inside, rfl, hangle, hskip⟩ :=
      skipAngle_angleList hne hnames hargs
    rw [List.cons_append, classNames,
      if_pos (by simp [(Token.face_sign hangle).2]), hskip]

theorem classNames_clause {names : List String} {ts : List Token}
    (hts : ts.map Token.face = clause "implements" names) :
    classNames ts = ([], ts) := by
  rw [clause] at hts
  split at hts
  · cases List.map_eq_nil_iff.1 hts
    rw [classNames]
  · obtain ⟨word, ts, rfl, hword, -⟩ := List.map_eq_cons_iff.1 hts
    obtain ⟨-, htext⟩ := Token.face_word hword
    rw [classNames]
    simp [htext, classNameStops]

/-- No word follows the word `for`. -/
theorem nameAfterFor?_none {ts : List Token}
    (h : ts.IsChain fun a b => a.text = "for" → b.isWord = false) :
    nameAfterFor? ts = none := by
  induction ts with
  | nil => rfl
  | cons t ts ih =>
      by_cases hfor : t.text = "for"
      · cases ts with
        | nil => simp [nameAfterFor?, hfor]
        | cons next ts =>
            have hnext := (List.isChain_cons_cons.1 h).1 hfor
            simp [nameAfterFor?, hfor, hnext]
      · have hrest := ih h.tail
        unfold nameAfterFor? at hrest ⊢
        rw [List.dropWhile_cons_of_pos (by simpa using hfor)]
        exact hrest

/-- A class header without parentheses declares the last of its names. -/
theorem classShape?_names {keyword : Token}
    (hkeyword : keyword.face = .word "class") {after rest : List Token}
    {names : List String}
    (hhead : ∀ t ∈ after.head?, t.text ∉ Dialect.java.rules.classKeywords)
    (hnames : classNames after = (names, rest))
    (hfor : nameAfterFor? (keyword :: after) = none)
    (hparen : splitAtText ["("] after = none) :
    Dialect.java.rules.classShape? .body (keyword :: after)
      = some (.classLike, .named (names.getLastD "")) := by
  obtain ⟨hword, htext⟩ := Token.face_word hkeyword
  have hsplit : splitAtKeyword Dialect.java.rules.classKeywords [".",
      "::", "?."] (keyword :: after) = some ([], keyword, after) := by
    simp [splitAtKeyword, splitTop, hword, htext, Token.depthAt, Token.closes,
      Dialect.rules]
  have hdrop : after.dropWhile
      (fun t => Dialect.java.rules.classKeywords.contains t.text)
      = after := by
    cases after with
    | nil => rfl
    | cons t ts =>
        apply List.dropWhile_cons_of_neg
        rw [List.contains_iff_mem]
        exact hhead t rfl
  rw [Rules.classShape?, hsplit]
  simp only [hdrop, hnames, hfor, Rules.returnsClass, hparen]
  simp

section Class

variable {name : String} {types interfaces : List String}

theorem comma_mem_classHeader :
    .sign "," ∈ classHeader name types interfaces
      ↔ 1 < types.length ∨ 1 < interfaces.length := by
  simp [classHeader, comma_mem_angleList, comma_mem_clause]

/-- A class header without names declares a class without a name. -/
theorem classShape?_unnamed (hinterfaces : interfaces.length ≤ 1)
    {keyword : Token} {back : List Token}
    (hkeyword : keyword.face = .word "class")
    (hback : back.map Token.face = clause "implements" interfaces)
    (hparen : splitAtText ["("] back = none) :
    Dialect.java.rules.classShape? .body (keyword :: back)
      = some (.classLike, .named "") := by
  have hchain : (.word "class" :: clause "implements" interfaces).IsChain
      fun a b : Face => a.2 = "for" → (b.1 == .word) = false := by
    match interfaces, hinterfaces with
    | [], _ | [_], _ => simp [clause, nameList, Face.word]
  rw [← hkeyword, ← hback, ← List.map_cons, List.isChain_map] at hchain
  refine classShape?_names hkeyword ?_ (classNames_clause hback)
    (nameAfterFor?_none hchain) hparen
  intro t ht
  have hface : t.face = .word "implements" := by
    apply clause_head
    rw [← hback, List.head?_map]
    exact Option.mem_map_of_mem _ ht
  rw [(Token.face_word hface).2]
  decide

/-- In a class with short lists no word follows the word `for`. -/
theorem nameAfterFor?_class (hstop : name ∉ classNameStops)
    (htypes : types.length ≤ 1) (hinterfaces : interfaces.length ≤ 1)
    {header : List Token}
    (hheader : header.map Token.face = classHeader name types interfaces) :
    nameAfterFor? header = none := by
  have hname : name ≠ "for" := by
    rintro rfl
    exact hstop (by decide)
  have hchain : (classHeader name types interfaces).IsChain
      fun a b : Face => a.2 = "for" → (b.1 == .word) = false := by
    match types, interfaces, htypes, hinterfaces with
    | [], [], _, _ | [], [_], _, _ | [_], [], _, _ | [_], [_], _, _ =>
        simp [classHeader, angleList, clause, nameList, Face.word,
          Face.sign, hname]
  rw [← hheader, List.isChain_map] at hchain
  exact nameAfterFor?_none hchain

/-- The names of a class header, its own words among them. -/
def classWords (name : String) (types interfaces : List String) : List String :=
  "class" :: "implements" :: (name :: types ++ interfaces)

variable (hwords : ∀ word ∈ name :: types ++ interfaces, isWordText word = true)
  {header : List Token}
  (hheader : header.map Token.face = classHeader name types interfaces)

include hwords hheader

theorem classHeader_run :
    ListRun (classWords name types interfaces) header where
  words := by
    intro word hword
    rcases List.mem_cons.1 hword with rfl | hword
    · exact isWordText_lead (by decide)
    · rcases List.mem_cons.1 hword with rfl | hword
      · exact isWordText_lead (by decide)
      · exact hwords word hword
  listed := by
    intro t ht
    have hface : t.face ∈ classHeader name types interfaces :=
      hheader ▸ List.mem_map_of_mem ht
    rw [classHeader, List.mem_cons, List.mem_cons, List.mem_append] at hface
    rcases hface with h | h | h | h
    · exact h ▸ .name (by simp [classWords])
    · exact h ▸ .name (by simp [classWords])
    · exact (angleList_listed types _ h).mono fun text htext => by
        simp [classWords, htext]
    · refine (clause_listed _ interfaces _ h).mono fun text htext => ?_
      rcases List.mem_cons.1 htext with rfl | htext
      · simp [classWords]
      · simp [classWords, htext]

/-- The class that a header with short lists declares. -/
theorem classShape?_listed (hkeyword : name ∉ Dialect.java.rules.keywords)
    (hstop : name ∉ classNameStops) (htypes : types.length ≤ 1)
    (hinterfaces : interfaces.length ≤ 1) :
    Dialect.java.rules.classShape? .body header
      = some (.classLike, .named name) := by
  have hrun := classHeader_run hwords hheader
  have hfor := nameAfterFor?_class hstop htypes hinterfaces hheader
  obtain ⟨keyword, after, rfl, hclass, hafter⟩ := List.map_eq_cons_iff.1 hheader
  obtain ⟨first, rest, rfl, hname, hrest⟩ := List.map_eq_cons_iff.1 hafter
  obtain ⟨args, back, rfl, hargs, hback⟩ := List.map_eq_append_iff.1 hrest
  obtain ⟨hfirst, htext⟩ := Token.face_word hname
  have hnames : classNames (first :: (args ++ back)) = ([name], back) := by
    have hne : ∀ sign ∈ ["<", "::", "."], name ≠ sign := by
      intro sign hsign
      apply isWordText_ne (hwords name (by simp))
      revert sign
      decide
    rw [classNames, classNames_angleList _ hargs, classNames_clause hback]
    · simp [hfirst, htext, hne, hstop]
    · exact fun type htype => hwords type (by simp [htype])
  have hafterRun := hrun.subset fun t => List.mem_cons_of_mem keyword
  refine classShape?_names hclass ?_ hnames hfor hafterRun.splitAtText_eq_none
  rintro t ⟨⟩
  rw [htext]
  exact fun hmem => hkeyword (by simp [Rules.keywords, hmem])

/-- A class has no decorations, unless its name and its type parameters are a
template list. -/
theorem undecorated_class (htemplate : name = "template" → types = []) :
    Dialect.java.rules.undecorated true header = header := by
  have hrun := classHeader_run hwords hheader
  obtain ⟨keyword, after, rfl, hclass, hafter⟩ := List.map_eq_cons_iff.1 hheader
  obtain ⟨first, rest, rfl, hname, hrest⟩ := List.map_eq_cons_iff.1 hafter
  have hrestRun : ListRun (classWords name types interfaces) rest :=
    hrun.subset fun t ht => by simp [ht]
  have hhead : first.text = "template" → ∀ next ∈ rest.head?,
      next.text ≠ "<" := by
    intro htext next hnext
    rw [htemplate ((Token.face_word hname).2.symm.trans htext)] at hrest
    have hangle : .sign "<" ∉ rest.map Token.face :=
      hrest ▸ sign_notMem_clause (by decide)
    exact hrestRun.text_ne_of_notMem (by decide) hangle next
      (List.mem_of_mem_head? hnext)
  have hword : keyword.text ≠ "template" := by
    rw [(Token.face_word hclass).2]
    decide
  rw [hrun.undecorated_cons (by simp) (fun h => absurd h hword),
    hrun.undecorated_cons (by simp) hhead, hrestRun.undecorated_eq]
  exact hrest ▸ angle_notMem_tail (sign_notMem_clause (by decide))

/-- A class of the name `template` loses its name and its type parameters. -/
theorem undecorated_template (htemplate : name = "template")
    (htypes : types ≠ []) :
    ∃ keyword after back, header = keyword :: after ∧ back <:+ after
      ∧ back.map Token.face = clause "implements" interfaces
      ∧ Dialect.java.rules.undecorated true header = keyword :: back := by
  have hrun := classHeader_run hwords hheader
  obtain ⟨keyword, after, rfl, hclass, hafter⟩ := List.map_eq_cons_iff.1 hheader
  obtain ⟨first, rest, rfl, hname, hrest⟩ := List.map_eq_cons_iff.1 hafter
  obtain ⟨args, back, rfl, hargs, hback⟩ := List.map_eq_append_iff.1 hrest
  have hargWords : ∀ type ∈ types, isWordText type = true :=
    fun type htype => hwords type (by simp [htype])
  obtain ⟨angle, inside, rfl, hangle, hskip⟩ :=
    skipAngle_angleList htypes hargWords hargs
  have hword : keyword.text ≠ "template" := by
    rw [(Token.face_word hclass).2]
    decide
  have hlist : Dialect.java.rules.decoration? false first
      (angle :: (inside ++ back))
      = some back := by
    have htext : first.text = "template" :=
      (Token.face_word hname).2.trans htemplate
    rw [Rules.decoration?_template false (hrun.decorator_ne (by simp))
      List.not_mem_nil htext (Token.face_sign hangle).2, hskip]
  have hbackRun : ListRun (classWords name types interfaces) back :=
    hrun.subset fun t ht => by simp [ht]
  refine ⟨keyword, _, back, rfl, ?_, hback, ?_⟩
  · exact ⟨first :: angle :: inside, by simp⟩
  · rw [hrun.undecorated_cons (by simp) (fun h => absurd h hword),
      List.cons_append, Rules.undecorated_skipped hlist,
      hbackRun.undecorated_eq]
    exact hback ▸ fun h =>
      sign_notMem_clause (by decide) (List.mem_of_mem_tail h)

/-- A class without commas is recognised under the name that its undecorated
form has. -/
theorem analyzeHeader_class {enclosing : ScopeKind}
    (hcommas : .sign "," ∉ classHeader name types interfaces) {first : Token}
    {rest kept : List Token} (hfirst : header = first :: rest)
    (hsubset : ∀ t ∈ kept, t ∈ rest)
    (hkept : Dialect.java.rules.undecorated true header = first :: kept)
    {label : String}
    (hclass : Dialect.java.rules.classShape? .body (first :: kept)
      = some (.classLike, .named label)) :
    Dialect.java.rules.analyzeHeader .body enclosing header
      = some ⟨.classLike, label, first.start⟩ := by
  have hrun := classHeader_run hwords hheader
  subst hfirst
  have hkeptRun : ListRun (classWords name types interfaces)
      (first :: kept) := by
    refine hrun.subset fun t ht => ?_
    rcases List.mem_cons.1 ht with rfl | ht
    · exact List.mem_cons_self
    · exact List.mem_cons_of_mem first (hsubset t ht)
  apply analyzeHeader_whole rfl hrun.bracketed
  · rw [hrun.topTokens_eq]
    exact hrun.text_ne_of_notMem (by decide) (hheader ▸ hcommas)
  · rw [hkept]
    apply declaration?_unassigned (List.cons_ne_nil _ _)
    · rw [hkeptRun.topTokens_eq]
      exact hkeptRun.text_ne (by decide)
    · intro t ht
      exact hkeptRun.text_ne (by decide) t
        (List.mem_cons_of_mem first (List.mem_of_mem_head? ht))
    · obtain ⟨-, htext⟩ := Token.face_word (List.cons.inj hheader).1
      rw [Rules.unmodified_kept (by rw [htext]; decide),
        Dialect.java_shape?, hclass]
      · rfl
      · rw [hkeptRun.topTokens_eq]
        exact hkeptRun.text_ne (by decide)

end Class

/-- A class is recognised from its first token on, under its name, exactly if
it has at most one type parameter and at most one interface. A class of the
name `template` has no type parameter. -/
theorem class_header_recognised_iff (enclosing : ScopeKind) {name : String}
    {types interfaces : List String} {first : Token} {rest : List Token}
    (hheader : (first :: rest).map Token.face
      = classHeader name types interfaces)
    (hwords : ∀ word ∈ name :: types ++ interfaces, isWordText word = true)
    (hkeyword : name ∉ Dialect.java.rules.keywords)
    (hstop : name ∉ classNameStops)
    (hstarts : (first :: rest).Pairwise fun a b => a.start < b.start) :
    Dialect.java.rules.analyzeHeader .body enclosing (first :: rest)
        = some ⟨.classLike, name, first.start⟩
      ↔ types.length ≤ 1 ∧ interfaces.length ≤ 1
        ∧ (name = "template" → types = []) := by
  have hrun := classHeader_run hwords hheader
  by_cases hcommas : .sign "," ∈ classHeader name types interfaces
  · -- The header is cut behind its first token.
    have hlong := comma_mem_classHeader.1 hcommas
    refine ⟨fun hfound => ?_, fun hshort => by omega⟩
    obtain ⟨comma, hmem, hface⟩ := List.mem_map.1 (hheader ▸ hcommas)
    have hcut :=
      analyzeHeader_cut rfl hrun.bracketed (hrun.topTokens_eq.symm ▸ hmem)
      (Token.face_sign hface).2 hstarts hfound
    exact absurd hcut (Nat.lt_irrefl _)
  · have hshort : types.length ≤ 1 ∧ interfaces.length ≤ 1 := by
      rw [comma_mem_classHeader] at hcommas
      omega
    by_cases htemplate : name = "template" → types = []
    · have hclass :=
        classShape?_listed hwords hheader hkeyword hstop hshort.1 hshort.2
      refine iff_of_true ?_ ⟨hshort.1, hshort.2, htemplate⟩
      exact analyzeHeader_class hwords hheader hcommas rfl (fun t => id)
        (undecorated_class hwords hheader htemplate) hclass
    · -- Nothing is left of its name.
      obtain ⟨hname, htypes⟩ := Classical.not_imp.1 htemplate
      obtain ⟨keyword, after, back, hsplit, hback, hfaces, hkept⟩ :=
        undecorated_template hwords hheader hname htypes
      have hsubset : ∀ t ∈ back, t ∈ after := fun t ht => hback.subset ht
      have hparen : splitAtText ["("] back = none :=
        (hrun.subset fun t ht =>
          hsplit ▸ List.mem_cons_of_mem _ (hsubset t ht)).splitAtText_eq_none
      obtain ⟨rfl, rfl⟩ := List.cons.inj hsplit
      have hclass :=
        classShape?_unnamed hshort.2 (List.cons.inj hheader).1 hfaces hparen
      rw [analyzeHeader_class hwords hheader hcommas rfl hsubset hkept hclass,
        hname]
      simp [htypes]

/-- A class with one type parameter and one interface. -/
def classOfOneType : List Char := "class Box<T> implements Shape".toList

/-- It is recognised under its name. -/
theorem class_of_one_type_recognised :
    Dialect.java.rules.analyzeHeader .body .file (codeTokens 0 classOfOneType)
      = some ⟨.classLike, "Box", 0⟩ := by
  have htokens : codeTokens 0 classOfOneType
      = [⟨.word, 0, "class"⟩, ⟨.word, 6, "Box"⟩, ⟨.punct, 9, "<"⟩,
        ⟨.word, 10, "T"⟩, ⟨.punct, 11, ">"⟩, ⟨.word, 13, "implements"⟩,
        ⟨.word, 24, "Shape"⟩] := by
    decide +kernel
  have hheader : (codeTokens 0 classOfOneType).map Token.face
      = classHeader "Box" ["T"] ["Shape"] := by
    rw [htokens]
    rfl
  rw [htokens] at hheader ⊢
  refine (class_header_recognised_iff .file hheader ?_ ?_ ?_ ?_).2 ?_
  · decide +kernel
  · decide
  · decide
  · decide
  · decide

/-- A class with two type parameters. -/
def classOfTwoTypes : List Char := "class N<A,B>".toList

/-- It is cut between them, and nothing is left. -/
theorem class_of_two_types_missed :
    (codeTokens 0 classOfTwoTypes).map Token.face
        = classHeader "N" ["A", "B"] []
      ∧ Dialect.java.rules.analyzeHeader .body .file
          (codeTokens 0 classOfTwoTypes)
        = none := by
  constructor
  · decide +kernel
  · decide +kernel

end Marginalia
