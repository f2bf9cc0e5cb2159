/-
Decorations: what may stand in front of a declaration without being part
of it. Decorators and annotations, bracketed attributes, template
parameter lists, and modifier words.
-/
import Marginalia.Dialect.Rules
import Marginalia.Header.Brackets

namespace Marginalia

-- ======================================================== decorators

/-- What follows the dotted rest of a decorator's name. -/
def afterDottedName : List Token → List Token
  | dot :: word :: ts =>
    if dot.text == "." && word.isWord then afterDottedName ts
    else dot :: word :: ts
  | ts => ts

/-- The tokens without the parenthesised group they start with. -/
def skipArguments : List Token → List Token
  | t :: ts => if t.text == "(" then skipGroup ts else t :: ts
  | [] => []

/-- What follows the decorator whose sign is followed by the tokens. The sign
alone is taken off an annotation declaration. -/
def afterDecorator? : List Token → Option (List Token)
  | word :: ts =>
    if !word.isWord then none
    else if word.text == "interface" then some (word :: ts)
    else some (skipArguments (afterDottedName ts))
  | [] => none

/-- What follows the attribute list that the tokens start with. -/
def afterAttribute? : List Token → Option (List Token)
  | bracket :: ts => if bracket.text == "[" then some (skipGroup ts) else none
  | [] => none

/-- The tokens without the exclamation mark they start with. -/
def skipBang : List Token → List Token
  | t :: ts => if t.text == "!" then ts else t :: ts
  | [] => []

/-- What follows the attribute that opens with `t` and goes on with the
tokens. -/
def Rules.attribute? (rules : Rules) (t : Token) (ts : List Token) :
    Option (List Token) :=
  if rules.attributeOpeners.contains t.text then
    afterAttribute? (skipBang (if t.text == "#" then ts else t :: ts))
  else none

/-- What follows the template parameter list that starts with `t`. -/
def afterTemplate? (t : Token) : List Token → Option (List Token)
  | angle :: ts =>
    if t.text == "template" && angle.text == "<" then some (skipAngle ts)
    else none
  | [] => none

/-- What follows the decoration that starts with `t`, if one does. Attributes
stand only in front of everything else. -/
def Rules.decoration? (rules : Rules) (atStart : Bool) (t : Token)
    (ts : List Token) : Option (List Token) :=
  (if rules.decorator == some t.text then afterDecorator? ts else none)
    <|> (if atStart then rules.attribute? t ts else none)
    <|> afterTemplate? t ts

/-- What follows a dotted name is the end of the tokens. -/
theorem afterDottedName_suffix (ts : List Token) :
    afterDottedName ts <:+ ts := by
  fun_induction afterDottedName ts with
  | case1 dot word ts _ ih =>
    exact (ih.trans (List.suffix_cons word ts)).trans (List.suffix_cons dot _)
  | case2 | case3 => exact List.suffix_refl _

/-- So is what follows the arguments. -/
theorem skipArguments_suffix (ts : List Token) : skipArguments ts <:+ ts := by
  fun_cases skipArguments ts with
  | case1 t ts => exact (skipGroup_suffix ts).trans (List.suffix_cons t ts)
  | case2 | case3 => exact List.suffix_refl _

/-- So is what follows a decorator. -/
theorem afterDecorator?_suffix {ts rest : List Token}
    (h : afterDecorator? ts = some rest) : rest <:+ ts := by
  cases ts with
  | nil => cases h
  | cons word ts =>
    rw [afterDecorator?] at h
    split at h
    · cases h
    · split at h
      · cases h
        exact List.suffix_refl _
      · cases h
        exact ((skipArguments_suffix _).trans
          (afterDottedName_suffix ts)).trans (List.suffix_cons word ts)

/-- What follows an attribute list stands behind its opening bracket. -/
theorem afterAttribute?_suffix {ts rest : List Token}
    (h : afterAttribute? ts = some rest) : rest <:+ ts.tail := by
  cases ts with
  | nil => cases h
  | cons bracket ts =>
    rw [afterAttribute?] at h
    split at h
    · cases h
      exact skipGroup_suffix ts
    · cases h

/-- So what follows an attribute stands behind its opening sign. -/
theorem Rules.attribute?_suffix {rules : Rules} {t : Token}
    {ts rest : List Token} (h : rules.attribute? t ts = some rest) :
    rest <:+ ts := by
  have hbang : ∀ ts, (skipBang ts).tail <:+ ts.tail := by
    intro ts
    fun_cases skipBang ts with
    | case1 t ts => exact List.tail_suffix ts
    | case2 | case3 => exact List.suffix_refl _
  unfold Rules.attribute? at h
  split at h
  · have hrest := (afterAttribute?_suffix h).trans (hbang _)
    split at hrest
    · exact hrest.trans (List.tail_suffix ts)
    · exact hrest
  · cases h

/-- What follows a template parameter list is the end of the tokens. -/
theorem afterTemplate?_suffix {t : Token} {ts rest : List Token}
    (h : afterTemplate? t ts = some rest) : rest <:+ ts := by
  cases ts with
  | nil => cases h
  | cons angle ts =>
    rw [afterTemplate?] at h
    split at h
    · cases h
      exact (skipAngle_suffix ts).trans (List.suffix_cons angle ts)
    · cases h

/-- So every decoration takes tokens off the front, its first at least. -/
theorem Rules.decoration?_suffix {rules : Rules} {atStart : Bool} {t : Token}
    {ts rest : List Token} (h : rules.decoration? atStart t ts = some rest) :
    rest <:+ ts := by
  unfold Rules.decoration? at h
  simp only [Option.orElse_eq_orElse, Option.orElse_eq_or,
    Option.or_eq_some_iff] at h
  rcases h with h | ⟨-, h | ⟨-, h⟩⟩
  · split at h
    · exact afterDecorator?_suffix h
    · cases h
  · split at h
    · exact Rules.attribute?_suffix h
    · cases h
  · exact afterTemplate?_suffix h

/-- The tokens without their decorations. `atStart` says that nothing but
decorations came before. -/
def Rules.undecorated (rules : Rules) (atStart : Bool) : List Token → List Token
  | [] => []
  | t :: ts =>
    match _h : rules.decoration? atStart t ts with
    | some rest => rules.undecorated atStart rest
    | none => t :: rules.undecorated false ts
termination_by ts => ts.length
decreasing_by
  · have := (Rules.decoration?_suffix _h).length_le
    simp only [List.length_cons]
    omega
  · simp

-- ========================================================= modifiers

/-- Whether a header goes on after a modifier with the token. -/
def Token.followsModifier (t : Token) : Bool :=
  t.isWord || ["*", "#", "[", "<"].contains t.text

/-- The tokens without the modifier words they start with. A modifier that
nothing follows is the name of something. -/
def Rules.unmodified (rules : Rules) : List Token → List Token
  | t :: next :: ts =>
    if t.isWord && rules.modifierKeywords.contains t.text
        && next.followsModifier then
      rules.unmodified (next :: ts)
    else t :: next :: ts
  | ts => ts

/-- Whether a header holds nothing but decorations and modifier words. -/
def Rules.isDecorationOnly (rules : Rules) (ts : List Token) : Bool :=
  (rules.undecorated true ts).all fun t =>
    rules.modifierKeywords.contains t.text

end Marginalia
