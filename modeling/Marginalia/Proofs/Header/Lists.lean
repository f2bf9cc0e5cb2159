/-
Headers with lists of names.

A class may list type parameters and interfaces, a method the type arguments
of what it returns and its exceptions. The commas between such names stand
outside all brackets that are counted, since angle brackets are none and the
other lists have none at all. A header is cut at its last comma before
anything is looked for in it (`analyzeHeader_cut`); without such commas it is
analysed as a whole (`analyzeHeader_whole`).

Here are the lists themselves, as the kinds and texts of their tokens, and
runs of tokens that are made of them.
-/
import Marginalia.Dialect.Tables
import Marginalia.Proofs.Header.Undecorated
import Marginalia.Token.OfSpans
import Mathlib.Data.List.Basic

namespace Marginalia

-- ============================================================= words

/-- Whether a text is that of a word. -/
def isWordText (text : String) : Bool :=
  match text.toList with
  | [] => false
  | c :: cs => startsWord c && cs.all continuesWord

/-- The words that stand in front of lists, or of what has lists, are words. -/
theorem isWordText_lead {word : String}
    (h : word ∈ ["class", "implements", "throws"]) :
    isWordText word = true := by
  revert word
  decide +kernel

/-- The signs of lists. -/
def listSigns : List String := ["<", ">", ","]

/-- The other signs that the analysis of a header looks for. -/
def otherSigns : List String :=
  trailerRejects ++ ["(", ")", "[", "]", "\x7b", "\x7d", ".", "::", ":", ";",
    "@", "->"]

/-- A word is no sign. -/
theorem isWordText_ne {text sign : String} (h : isWordText text = true)
    (hsign : sign ∈ listSigns ++ otherSigns) : text ≠ sign := by
  have hsigns : ∀ sign ∈ listSigns ++ otherSigns, isWordText sign = false := by
    decide +kernel
  rintro rfl
  rw [hsigns text hsign] at h
  cases h

/-- The words that mean something in a dialect. -/
def Rules.keywords (rules : Rules) : List String :=
  rules.functionKeywords ++ rules.classKeywords ++ rules.modifierKeywords
    ++ rules.controlKeywords

-- ============================================================= lists

/-- What a token is, wherever it stands. -/
abbrev Face := TokenKind × String

def Token.face (t : Token) : Face := (t.kind, t.text)

def Face.word (text : String) : Face := (.word, text)

def Face.sign (text : String) : Face := (.punct, text)

/-- Names with commas between them. -/
def nameList (names : List String) : List Face :=
  (names.map Face.word).intersperse (.sign ",")

/-- Names in angle brackets; nothing if there are none. -/
def angleList (names : List String) : List Face :=
  if names.isEmpty then [] else .sign "<" :: (nameList names ++ [.sign ">"])

/-- Names behind a word; nothing if there are none. -/
def clause (word : String) (names : List String) : List Face :=
  if names.isEmpty then [] else .word word :: nameList names

@[simp]
theorem Face.sign_ne_word {sign word : String} :
    Face.sign sign ≠ Face.word word :=
  fun h => TokenKind.noConfusion (Prod.mk.inj h).1

@[simp]
theorem Face.sign_inj {a b : String} : Face.sign a = Face.sign b ↔ a = b := by
  simp [Face.sign]

/-- A token that looks like a word is that word. -/
theorem Token.face_word {t : Token} {text : String} (h : t.face = .word text) :
    t.isWord = true ∧ t.text = text := by
  rw [face, Face.word, Prod.mk.injEq] at h
  exact ⟨beq_iff_eq.2 h.1, h.2⟩

/-- A token that looks like a sign is no word. -/
theorem Token.face_sign {t : Token} {text : String} (h : t.face = .sign text) :
    t.isWord = false ∧ t.text = text := by
  rw [face, Face.sign, Prod.mk.injEq] at h
  refine ⟨?_, h.2⟩
  rw [isWord, h.1]
  rfl

-- ==================================================== what is listed

/-- One of the names, or a sign of a list. -/
inductive Listed (names : List String) : Face → Prop where
  | name {text : String} (mem : text ∈ names) : Listed names (.word text)
  | sign {text : String} (mem : text ∈ listSigns) : Listed names (.sign text)

/-- What is listed under some names is listed under more. -/
theorem Listed.mono {names names' : List String} {face : Face}
    (h : Listed names face) (hsubset : ∀ text ∈ names, text ∈ names') :
    Listed names' face := by
  cases h with
  | name mem => exact .name (hsubset _ mem)
  | sign mem => exact .sign mem

/-- A list of names holds the names and commas. -/
theorem mem_nameList {names : List String} {face : Face}
    (h : face ∈ nameList names) :
    (∃ name ∈ names, face = .word name) ∨ face = .sign "," := by
  induction names with
  | nil => cases h
  | cons name names ih =>
      cases names with
      | nil => exact .inl ⟨name, List.mem_cons_self, List.mem_singleton.1 h⟩
      | cons next names =>
          rw [nameList, List.map_cons, List.map_cons,
            List.intersperse_cons_cons, List.mem_cons, List.mem_cons] at h
          rcases h with h | h | h
          · exact .inl ⟨name, List.mem_cons_self, h⟩
          · exact .inr h
          · refine (ih h).imp_left fun ⟨other, hother, hface⟩ => ?_
            exact ⟨other, List.mem_cons_of_mem name hother, hface⟩

theorem nameList_listed (names : List String) :
    ∀ face ∈ nameList names, Listed names face := by
  intro face h
  rcases mem_nameList h with ⟨name, hname, rfl⟩ | rfl
  · exact .name hname
  · exact .sign (by decide)

theorem angleList_listed (names : List String) :
    ∀ face ∈ angleList names, Listed names face := by
  intro face h
  rw [angleList] at h
  split at h
  · cases h
  · rw [List.mem_cons, List.mem_append, List.mem_singleton] at h
    rcases h with rfl | h | rfl
    · exact .sign (by decide)
    · exact nameList_listed names face h
    · exact .sign (by decide)

/-- So is a clause, its word among the names. -/
theorem clause_listed (word : String) (names : List String) :
    ∀ face ∈ clause word names, Listed (word :: names) face := by
  intro face h
  rw [clause] at h
  split at h
  · cases h
  · rcases List.mem_cons.1 h with rfl | h
    · exact .name List.mem_cons_self
    · exact (nameList_listed names face h).mono fun text =>
        List.mem_cons_of_mem word

/-- A clause starts with its word. -/
theorem clause_head {word : String} {names : List String} {face : Face}
    (h : face ∈ (clause word names).head?) : face = .word word := by
  rw [clause] at h
  split at h
  · cases h
  · exact (Option.some.inj h).symm

/-- Two names have a comma between them, one or none has no comma. -/
theorem comma_mem_nameList {names : List String} :
    .sign "," ∈ nameList names ↔ 1 < names.length := by
  cases names with
  | nil => simp [nameList]
  | cons name names =>
      cases names with
      | nil => simp [nameList]
      | cons next names => simp [nameList]

/-- There is a comma in angle brackets just if there are two names. -/
theorem comma_mem_angleList {names : List String} :
    .sign "," ∈ angleList names ↔ 1 < names.length := by
  rw [angleList]
  split
  · next h => simp [List.isEmpty_iff.1 h]
  · rw [← comma_mem_nameList]
    simp

/-- And in a clause just if there are two names. -/
theorem comma_mem_clause {word : String} {names : List String} :
    .sign "," ∈ clause word names ↔ 1 < names.length := by
  rw [clause]
  split
  · next h => simp [List.isEmpty_iff.1 h]
  · rw [← comma_mem_nameList]
    simp

/-- The only sign among names is the comma. -/
theorem sign_notMem_nameList {sign : String} (hsign : sign ≠ ",")
    {names : List String} :
    .sign sign ∉ nameList names := by
  intro h
  rcases mem_nameList h with ⟨name, -, hface⟩ | hface
  · exact absurd hface Face.sign_ne_word
  · exact hsign (Face.sign_inj.1 hface)

theorem sign_notMem_clause {sign word : String} (hsign : sign ≠ ",")
    {names : List String} :
    .sign sign ∉ clause word names := by
  rw [clause]
  split
  · exact List.not_mem_nil
  · simp [sign_notMem_nameList hsign]

/-- At most one angle bracket opens, and in front of all else. -/
theorem angle_notMem_tail {names : List String} {back : List Face}
    (hback : .sign "<" ∉ back) :
    .sign "<" ∉ (angleList names ++ back).tail := by
  rw [angleList]
  split
  · exact fun h => hback (List.mem_of_mem_tail h)
  · have hlist : .sign "<" ∉ nameList names := sign_notMem_nameList (by decide)
    simp [hlist, hback]

/-- A list in angle brackets ends with one. -/
theorem angleList_getLast? {names : List String} (hne : names ≠ []) :
    (angleList names).getLast? = some (.sign ">") := by
  rw [angleList, if_neg (by simpa using hne), ← List.cons_append,
    List.getLast?_concat]

-- ===================================================== runs of lists

/-- Tokens that are names and signs of lists. -/
structure ListRun (names : List String) (ts : List Token) : Prop where
  words : ∀ name ∈ names, isWordText name = true
  listed : ∀ t ∈ ts, Listed names t.face

namespace ListRun

variable {names : List String} {ts : List Token} (h : ListRun names ts)

include h

/-- A part of such a run is such a run. -/
theorem subset {ts' : List Token} (hsubset : ∀ t ∈ ts', t ∈ ts) :
    ListRun names ts' :=
  ⟨h.words, fun t ht => h.listed t (hsubset t ht)⟩

/-- A text that is a sign is one of a list, and stands there as a sign. -/
theorem mem_face {t : Token} (ht : t ∈ ts)
    (hsign : t.text ∈ listSigns ++ otherSigns) :
    .sign t.text ∈ ts.map Token.face ∧ t.text ∈ listSigns := by
  have hlisted := h.listed t ht
  have hmem : t.face ∈ ts.map Token.face := List.mem_map_of_mem ht
  generalize hface : t.face = face at hlisted hmem
  cases hlisted with
  | name mem =>
      exact absurd (Token.face_word hface).2
        (isWordText_ne (h.words _ mem) hsign).symm
  | sign mem =>
      rw [(Token.face_sign hface).2]
      exact ⟨hmem, mem⟩

/-- A sign of no list is nowhere in the run. -/
theorem text_ne {text : String} (hother : text ∈ otherSigns) :
    ∀ t ∈ ts, t.text ≠ text := by
  have hdisjoint : ∀ sign ∈ otherSigns, sign ∉ listSigns := by decide
  rintro t ht rfl
  exact hdisjoint _ hother (h.mem_face ht (List.mem_append_right _ hother)).2

/-- It holds no sign that is none of a list. -/
theorem text_notMem {texts : List String}
    (hother : ∀ text ∈ texts, text ∈ otherSigns) :
    ∀ t ∈ ts, t.text ∉ texts :=
  fun t ht hmem => h.text_ne (hother _ hmem) t ht rfl

/-- Nor is a sign that the lists do not have. -/
theorem text_ne_of_notMem {text : String} (hlist : text ∈ listSigns)
    (hmem : .sign text ∉ ts.map Token.face) : ∀ t ∈ ts, t.text ≠ text := by
  rintro t ht rfl
  exact hmem (h.mem_face ht (List.mem_append_left _ hlist)).1

/-- Its words are the names. -/
theorem mem_of_isWord {t : Token} (ht : t ∈ ts) (hword : t.isWord = true) :
    t.text ∈ names := by
  have hlisted := h.listed t ht
  generalize hface : t.face = face at hlisted
  cases hlisted with
  | name mem => exact (Token.face_word hface).2 ▸ mem
  | sign mem =>
      rw [(Token.face_sign hface).1] at hword
      cases hword

/-- Angle brackets apart, it has no brackets. -/
theorem isFlat : ∀ t ∈ ts, t.isFlat = true := by
  intro t ht
  have hbrackets : t.text ∉ ["(", "[", "\x7b", ")", "]", "\x7d"] :=
    h.text_notMem (by decide) t ht
  simp only [List.mem_cons, List.not_mem_nil, or_false, not_or] at hbrackets
  simp [Token.isFlat, Token.opens, Token.closes, hbrackets]

/-- There are no brackets, so all of the run stands outside them. -/
theorem topTokens_eq : topTokens 0 ts = ts := topTokens_flat h.isFlat

theorem bracketed : Bracketed ts := .of_flat h.isFlat

/-- There are no parameters in the run. -/
theorem splitAtText_eq_none : splitAtText ["("] ts = none := by
  apply splitAtText_none
  rw [h.topTokens_eq]
  exact h.text_notMem (by decide)

theorem decorator_ne {t : Token} (ht : t ∈ ts) :
    Dialect.java.rules.decorator ≠ some t.text :=
  fun hat => h.text_ne (by decide) t ht (Option.some.inj hat).symm

/-- No decoration starts with a token of the run, a template list apart. -/
theorem undecorated_cons {t : Token} (ht : t ∈ ts) {following : List Token}
    (htemplate : t.text = "template" → ∀ next ∈ following.head?,
      next.text ≠ "<")
    (atStart : Bool) :
    Dialect.java.rules.undecorated atStart (t :: following)
      = t :: Dialect.java.rules.undecorated false following :=
  Rules.undecorated_kept
    (Rules.decoration?_none atStart (h.decorator_ne ht) List.not_mem_nil
      htemplate)

/-- No decoration starts in a run of which at most the first token is an angle
bracket. -/
theorem undecorated_append (hangles : .sign "<" ∉ (ts.map Token.face).tail)
    {behind : List Token} (hbehind : ∀ t ∈ behind.head?, t.text ≠ "<") :
    Dialect.java.rules.undecorated false (ts ++ behind)
      = ts ++ Dialect.java.rules.undecorated false behind := by
  apply Rules.undecorated_front hbehind
  · exact fun t ht => ⟨h.decorator_ne ht, List.not_mem_nil⟩
  · rw [← List.map_tail] at hangles
    exact (h.subset fun t => List.mem_of_mem_tail).text_ne_of_notMem
      (by decide) hangles

/-- Nothing in it is a decoration, if no angle bracket stands behind its first
token. -/
theorem undecorated_eq (hangles : .sign "<" ∉ (ts.map Token.face).tail) :
    Dialect.java.rules.undecorated false ts = ts := by
  have happend :=
    h.undecorated_append hangles (fun t (ht : t ∈ [].head?) => nomatch ht)
  rwa [List.append_nil, Rules.undecorated, List.append_nil] at happend

end ListRun

/-- No name and no comma between names opens or closes an angle bracket. -/
theorem afterAngle_names {names : List String}
    (hnames : ∀ name ∈ names, isWordText name = true) {close : Token}
    (hclose : close.text = ">") (back : List Token) {ts : List Token}
    (hts : ∀ t ∈ ts, t.face ∈ nameList names) :
    afterAngle 0 (ts ++ close :: back) = some back := by
  induction ts with
  | nil => simp [afterAngle, hclose]
  | cons t ts ih =>
      have hne : ∀ sign ∈ ["<", ">", "\x7b", ";"], t.text ≠ sign := by
        rcases mem_nameList (hts t List.mem_cons_self) with ⟨name, hname,
          hface⟩ | hface
        · intro sign hsign
          rw [(Token.face_word hface).2]
          apply isWordText_ne (hnames name hname)
          revert sign
          decide
        · rw [(Token.face_sign hface).2]
          decide
      have hrest := ih fun t' ht' => hts t' (List.mem_cons_of_mem t ht')
      rw [List.cons_append, afterAngle.eq_def]
      simp [hne, hrest]

/-- A list in angle brackets ends with the list. -/
theorem skipAngle_angleList {names : List String} (hne : names ≠ [])
    (hnames : ∀ name ∈ names, isWordText name = true) {args : List Token}
    (hargs : args.map Token.face = angleList names) :
    ∃ angle inside, args = angle :: inside ∧ angle.face = .sign "<"
      ∧ ∀ back, skipAngle (inside ++ back) = back := by
  rw [angleList, if_neg (by simpa using hne), List.map_eq_cons_iff] at hargs
  obtain ⟨angle, inside, rfl, hangle, hinside⟩ := hargs
  obtain ⟨listed, closing, rfl, hlisted, hclosing⟩ :=
    List.map_eq_append_iff.1 hinside
  obtain ⟨close, nothing, rfl, hclose, hnothing⟩ :=
    List.map_eq_cons_iff.1 hclosing
  cases List.map_eq_nil_iff.1 hnothing
  refine ⟨angle, _, rfl, hangle, fun back => ?_⟩
  have hafter : afterAngle 0 (listed ++ close :: back) = some back :=
    afterAngle_names hnames (Token.face_sign hclose).2 back
      fun t ht => hlisted ▸ List.mem_map_of_mem ht
  rw [List.append_assoc, List.singleton_append, skipAngle, hafter,
    Option.getD_some]

-- ============================================================ commas

/-- Of a header with a comma outside all brackets nothing is recognised from
its first token on. -/
theorem analyzeHeader_cut {rules : Rules} (hbars : rules.barClosures = false)
    {terminator : Terminator} {enclosing : ScopeKind} {first : Token}
    {rest : List Token} (h : Bracketed (first :: rest)) {comma : Token}
    (hmem : comma ∈ topTokens 0 (first :: rest)) (hcomma : comma.text = ",")
    (hstarts : (first :: rest).Pairwise fun a b => a.start < b.start)
    {found : HeaderMatch}
    (hfound : rules.analyzeHeader terminator enclosing (first :: rest)
      = some found) :
    first.start < found.start := by
  have hflat : comma.isFlat = true := by
    simp [Token.isFlat, Token.opens, Token.closes, hcomma]
  obtain ⟨front, back, hsplit, depth, -, hfront⟩ := topTokens_split hflat hmem
  obtain ⟨t, ht, hstart⟩ := analyzeHeader_innermost hfound
  rw [hsplit] at h
  rw [hbars, hsplit] at ht
  rw [h.closed.innermost_comma ⟨depth, hfront⟩ hcomma] at ht
  have hback : t ∈ back := by
    rcases lastArgument_suffix false back back 0 false with hwhole | hsuffix
    · exact hwhole ▸ ht
    · exact hsuffix.subset ht
  rw [← hstart]
  cases front with
  | nil =>
      obtain ⟨rfl, rfl⟩ := List.cons.inj hsplit
      exact (List.pairwise_cons.1 hstarts).1 t hback
  | cons u front =>
      obtain ⟨rfl, rfl⟩ := List.cons.inj hsplit
      exact (List.pairwise_cons.1 hstarts).1 t (by simp [hback])

/-- A header without such a comma is analysed as a whole. -/
theorem analyzeHeader_uncut {rules : Rules} (hbars : rules.barClosures = false)
    (terminator : Terminator) (enclosing : ScopeKind) {first : Token}
    {rest : List Token} (h : Bracketed (first :: rest))
    (hcommas : ∀ t ∈ topTokens 0 (first :: rest), t.text ≠ ",") :
    rules.analyzeHeader terminator enclosing (first :: rest)
      = (rules.declaration? terminator enclosing
        (rules.undecorated true (first :: rest))).map
          fun (shape, name) => ⟨shape, name, first.start⟩ := by
  rw [Rules.analyzeHeader, hbars, h.closed.innermost_whole hcommas]
  cases hexpr : rules.undecorated true (first :: rest) with
  | nil =>
      simp only [hexpr]
      rfl
  | cons t ts => simp only [hexpr]

/-- A header whose brackets match and that has no comma outside of them is one
expression, and declares what it declares. -/
theorem analyzeHeader_whole {rules : Rules} (hbars : rules.barClosures = false)
    {terminator : Terminator} {enclosing : ScopeKind} {first : Token}
    {rest : List Token} (h : Bracketed (first :: rest))
    (hcommas : ∀ t ∈ topTokens 0 (first :: rest), t.text ≠ ",")
    {shape : HeaderShape} {name : String}
    (hdeclares : rules.declaration? terminator enclosing
      (rules.undecorated true (first :: rest)) = some (shape, name)) :
    rules.analyzeHeader terminator enclosing (first :: rest)
      = some ⟨shape, name, first.start⟩ := by
  rw [analyzeHeader_uncut hbars terminator enclosing h hcommas, hdeclares]
  rfl

-- ============================================================ shapes

theorem Label.resolve_named (name : String) :
    (Label.named name).resolve "" = name := by
  rw [Label.resolve]
  split
  · next hempty => exact (beq_iff_eq.1 hempty).symm
  · rfl

/-- An expression that assigns nothing declares what its shape says. -/
theorem declaration?_shape {rules : Rules} (terminator : Terminator)
    (enclosing : ScopeKind) {expr : List Token} (hne : expr ≠ [])
    (hassigns : ∀ t ∈ topTokens 0 expr, t.text ≠ "=")
    (hkey : ∀ t ∈ expr.tail.head?, t.text ≠ ":") :
    rules.declaration? terminator enclosing expr
      = (rules.shape? terminator enclosing true (rules.unmodified expr)).map
          fun (shape, label) => (shape, label.resolve "") := by
  have hsplit : splitAssignment expr = none := by
    unfold splitAssignment
    rw [splitLastText_none expr 0 hassigns]
    split
    · next hsome => cases hsome
    · split
      · next key colon value rest =>
        have hcolon : colon.text ≠ ":" := hkey colon rfl
        simp [hcolon]
      · rfl
  rw [Rules.declaration?, hsplit]
  simp only [Rules.expressionShape?, List.isEmpty_iff, hne, if_false]

/-- An expression that is neither an assignment nor a property declares what its
shape says. -/
theorem declaration?_unassigned {rules : Rules} {terminator : Terminator}
    {enclosing : ScopeKind} {expr : List Token} (hne : expr ≠ [])
    (hassigns : ∀ t ∈ topTokens 0 expr, t.text ≠ "=")
    (hkey : ∀ t ∈ expr.tail.head?, t.text ≠ ":") {shape : HeaderShape}
    {name : String}
    (hshape : rules.shape? terminator enclosing true (rules.unmodified expr)
      = some (shape, .named name)) :
    rules.declaration? terminator enclosing expr = some (shape, name) := by
  rw [declaration?_shape terminator enclosing hne hassigns hkey, hshape]
  simp only [Option.map_some, Label.resolve_named]

/-- A dialect without function keywords, whose functions are told by their
parameters; its only arrow and its only decorator are those of Java. -/
structure Rules.BySignature (rules : Rules) : Prop where
  signatures : rules.signatureFunctions = true
  keywords : rules.functionKeywords = []
  bars : rules.barClosures = false
  captures : rules.bracketLambdas = false
  attributes : rules.attributeOpeners = []
  arrows : ∀ arrow ∈ rules.lambdaArrows, arrow = "->"
  decorator : ∀ sign ∈ rules.decorator, sign = "@"

/-- C and Java are such dialects. -/
theorem Dialect.bySignature {dialect : Dialect}
    (h : dialect = .c ∨ dialect = .java) :
    dialect.rules.BySignature := by
  rcases h with rfl | rfl <;> constructor <;> decide

/-- There an expression without an arrow is a class or a signature, or
nothing. -/
theorem Rules.BySignature.shape? {rules : Rules} (h : rules.BySignature)
    (terminator : Terminator) (enclosing : ScopeKind) {expr : List Token}
    (harrows : ∀ t ∈ topTokens 0 expr, t.text ≠ "->") :
    rules.shape? terminator enclosing true expr
      = (rules.classShape? terminator expr
        <|> rules.signatureShape? terminator enclosing expr) := by
  have harrow : splitAtText rules.lambdaArrows expr = none :=
    splitAtText_none fun t ht hmem => harrows t ht (h.arrows t.text hmem)
  have hkeyword : rules.keywordShape? expr = none := by
    rw [keywordShape?, splitAtKeyword_none]
    intro t _ _
    rw [h.keywords]
    exact List.not_mem_nil
  rw [Rules.shape?, harrow, hkeyword, h.bars, h.captures, h.signatures]
  simp

/-- There a token that is neither the sign of an annotation nor the word
`template` starts no decoration. -/
theorem Rules.BySignature.undecorated_cons {rules : Rules}
    (h : rules.BySignature) {t : Token} (hsign : t.text ≠ "@")
    (htemplate : t.text ≠ "template") (ts : List Token) :
    rules.undecorated false (t :: ts) = t :: rules.undecorated false ts := by
  apply undecorated_kept
  apply decoration?_none false
  · exact fun hdecorator => hsign (h.decorator t.text hdecorator)
  · rw [h.attributes]
    exact List.not_mem_nil
  · exact fun htext => absurd htext htemplate

theorem Dialect.java_shape? {terminator : Terminator} {enclosing : ScopeKind}
    {expr : List Token} (harrows : ∀ t ∈ topTokens 0 expr, t.text ≠ "->") :
    Dialect.java.rules.shape? terminator enclosing true expr
      = (Dialect.java.rules.classShape? terminator expr
        <|> Dialect.java.rules.signatureShape? terminator enclosing expr) :=
  (Dialect.bySignature (.inr rfl)).shape? terminator enclosing harrows

-- ======================================================== parameters

section Parameters

variable {front parameters trailer : List Token}
    {called opening closing : Token}

/-- A name with its parameters and what follows has matching brackets if the
parameters do. -/
theorem bracketed_called (hfront : ∀ t ∈ front ++ [called], t.isFlat = true)
    (hopening : opening.text = "(") (hparameters : Bracketed parameters)
    (hclosing : closing.text = ")")
    (htrailer : ∀ t ∈ trailer, t.isFlat = true) :
    Bracketed (front ++ called :: opening
      :: (parameters ++ closing :: trailer)) := by
  have hgroup :=
    (hparameters.group hopening hclosing).append (.of_flat htrailer)
  rw [List.cons_append, List.append_assoc, List.singleton_append] at hgroup
  rw [List.append_cons]
  exact (Bracketed.of_flat hfront).append hgroup

/-- Around parameters, nothing but their parentheses is a bracket. -/
theorem topTokens_called (hfront : ∀ t ∈ front ++ [called], t.isFlat = true)
    (hopening : opening.text = "(") (hparameters : Bracketed parameters)
    (hclosing : closing.text = ")")
    (htrailer : ∀ t ∈ trailer, t.isFlat = true) :
    topTokens 0 (front ++ called :: opening
      :: (parameters ++ closing :: trailer))
      = front ++ called :: opening :: closing :: trailer := by
  rw [List.append_cons, topTokens_append _ _ (Bracketed.of_flat hfront),
    topTokens_flat hfront, topTokens_group hopening hclosing hparameters,
    topTokens_flat htrailer, ← List.append_cons]

/-- The second token of a signature stands in front of its parameters, or is
their parenthesis. -/
theorem mem_of_second {behind : List Token} {t : Token}
    (ht : t ∈ (front ++ called :: opening :: behind).tail.head?) :
    t ∈ front ++ [called, opening] := by
  match front, ht with
  | [], ht | [_], ht | _ :: _ :: _, ht => simp_all

/-- In front of a body, the word in front of the parameters is the name of a
function, unless it is a control word. -/
theorem Rules.signatureShape?_body {rules : Rules} (enclosing : ScopeKind)
    (hfront : ∀ t ∈ front ++ [called], t.isFlat = true)
    (hlast : ∀ t ∈ front.getLast?, t.text ∉ ["new", ".", "?.", "->"])
    (hword : called.isWord = true) (hangle : called.text ≠ ">")
    (hopening : opening.text = "(") (hparameters : Bracketed parameters)
    (hclosing : closing.text = ")")
    (htrailer : ∀ t ∈ trailer, t.text ∉ trailerRejects) :
    rules.signatureShape? .body enclosing
        (front ++ called :: opening :: (parameters ++ closing :: trailer))
      = if called.text ∈ rules.controlKeywords then none
        else some (.function, .named called.text) := by
  have hparens : ∀ t ∈ topTokens 0 (front ++ [called]), t.text ∉ ["("] := by
    intro t ht hparen
    rw [topTokens_flat hfront] at ht
    have hopens := Token.opens_paren (List.mem_singleton.1 hparen)
    rw [(Token.isFlat_iff.1 (hfront t ht)).1] at hopens
    cases hopens
  have hsplit : splitAtText ["("]
      (front ++ called :: opening :: (parameters ++ closing :: trailer))
      = some (front ++ [called], opening, parameters ++ closing
        :: trailer) := by
    rw [List.append_cons]
    exact splitAtText_found (.of_flat hfront) hparens
      (List.mem_singleton.2 hopening)
  have hback : skipAngleBack (front ++ [called]).reverse
      = called :: front.reverse := by
    rw [List.reverse_concat, skipAngleBack, if_neg (by simpa using hangle)]
  have hclose := hparameters.afterClose hclosing trailer
  have hnew : front.reverse.head?.any (·.text == "new") = false := by
    rw [List.head?_reverse, Option.any_eq_false]
    intro t ht
    exact beq_false_of_ne fun hnew => hlast t ht (by simp [hnew])
  have hmember :
      (front.reverse.head?.any fun t => [".", "?.", "->"].contains t.text)
        = false := by
    rw [List.head?_reverse, Option.any_eq_false]
    intro t ht
    simpa using fun hmember => hlast t ht (List.mem_cons_of_mem "new" hmember)
  have hadmits : rules.admitsTrailer .body enclosing front.reverse.head? trailer
      = true := by
    simpa [admitsTrailer] using htrailer
  rw [signatureShape?, hsplit]
  simp only [hback, hword, hnew, hmember, hclose, hadmits]
  simp

end Parameters

end Marginalia
