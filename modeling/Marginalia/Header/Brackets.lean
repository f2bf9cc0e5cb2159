/-
Brackets in a run of tokens.

Headers are read without a grammar; what guides the reading is which
tokens stand outside all brackets. Parentheses, square brackets and
braces count alike, a closing one matching whatever was opened last, and
one that closes nothing is passed over. Angle brackets are groups only
where a type may stand, and so have functions of their own.
-/
import Marginalia.Token.Basic

namespace Marginalia

-- ============================================================= depth

/-- Whether the token opens a bracket. -/
def Token.opens (t : Token) : Bool :=
  t.text == "(" || t.text == "[" || t.text == "\x7b"

/-- Whether the token closes a bracket. -/
def Token.closes (t : Token) : Bool :=
  t.text == ")" || t.text == "]" || t.text == "\x7d"

/-- The depth a token stands at, `depth` brackets being open before it: a
closing bracket stands where its opening one does. -/
def Token.depthAt (t : Token) (depth : Nat) : Nat :=
  if t.closes then depth - 1 else depth

/-- The depth after a token that stands at the given depth. -/
def Token.depthAfter (t : Token) (depth : Nat) : Nat :=
  if t.opens then depth + 1 else depth

/-- The first token outside all brackets that satisfies `p`, which also sees
the token before it, with the tokens in front of it and behind it. -/
def splitTop (p : Option Token → Token → Bool) (before : Option Token)
    (depth : Nat) : List Token → Option (List Token × Token × List Token)
  | [] => none
  | t :: ts =>
    if t.depthAt depth == 0 && p before t then some ([], t, ts)
    else
      (splitTop p (some t) (t.depthAfter (t.depthAt depth)) ts).map
        fun (front, found, back) => (t :: front, found, back)

/-- The first token outside all brackets with one of the texts. -/
def splitAtText (texts : List String) (ts : List Token) :
    Option (List Token × Token × List Token) :=
  splitTop (fun _ t => texts.contains t.text) none 0 ts

/-- The first word outside all brackets that is one of the keywords and does
not follow one of the given signs. -/
def splitAtKeyword (keywords notAfter : List String) (ts : List Token) :
    Option (List Token × Token × List Token) :=
  splitTop
    (fun before t => t.isWord && keywords.contains t.text
      && !before.any fun b => notAfter.contains b.text)
    none 0 ts

/-- The tokens in front of and behind the last token outside all brackets
with the given text. -/
def splitLastText (text : String) (depth : Nat) :
    List Token → Option (List Token × List Token)
  | [] => none
  | t :: ts =>
    match splitLastText text (t.depthAfter (t.depthAt depth)) ts with
    | some (front, back) => some (t :: front, back)
    | none => if t.depthAt depth == 0 && t.text == text then some ([], ts)
      else none

-- ============================================================ groups

/-- What follows the bracket that closes the innermost of `depth + 1` open
brackets. -/
def afterClose (depth : Nat) : List Token → Option (List Token)
  | [] => none
  | t :: ts =>
    if t.opens then afterClose (depth + 1) ts
    else if t.closes then
      match depth with
      | 0 => some ts
      | d + 1 => afterClose d ts
    else afterClose depth ts

/-- What follows the group whose opening bracket was just read; a group that
is never closed takes everything. -/
def skipGroup (ts : List Token) : List Token := (afterClose 0 ts).getD []

/-- What follows the sign that closes the innermost of `depth + 1` open
angle brackets; a body or the end of a statement ends the search. -/
def afterAngle (depth : Nat) : List Token → Option (List Token)
  | [] => none
  | t :: ts =>
    if t.text == "<" then afterAngle (depth + 1) ts
    else if t.text == ">" then
      match depth with
      | 0 => some ts
      | d + 1 => afterAngle d ts
    else if t.text == "\x7b" || t.text == ";" then none
    else afterAngle depth ts

/-- What follows the angle group whose opening sign was just read; if it is
never closed, the sign was a comparison. -/
def skipAngle (ts : List Token) : List Token := (afterAngle 0 ts).getD ts

/-- Read backwards: what precedes the sign that opens the outermost of
`depth + 1` angle groups. -/
def beforeAngle (depth : Nat) : List Token → Option (List Token)
  | [] => none
  | t :: ts =>
    if t.text == ">" then beforeAngle (depth + 1) ts
    else if t.text == "<" then
      match depth with
      | 0 => some ts
      | d + 1 => beforeAngle d ts
    else beforeAngle depth ts

/-- Read backwards: the tokens without the angle group they start with. -/
def skipAngleBack : List Token → List Token
  | [] => []
  | t :: ts => if t.text == ">" then (beforeAngle 0 ts).getD [] else t :: ts

/-- What follows a closing bracket stands behind that bracket. -/
theorem afterClose_suffix {depth : Nat} {ts rest : List Token}
    (h : afterClose depth ts = some rest) : ∃ t, t :: rest <:+ ts := by
  fun_induction afterClose depth ts with
  | case1 => cases h
  | case2 _ _ _ _ ih => exact (ih h).imp fun _ h => h.trans (List.suffix_cons ..)
  | case3 t => cases h; exact ⟨t, List.suffix_refl _⟩
  | case4 _ _ _ _ _ ih =>
    exact (ih h).imp fun _ h => h.trans (List.suffix_cons ..)
  | case5 _ _ _ _ _ ih =>
    exact (ih h).imp fun _ h => h.trans (List.suffix_cons ..)

/-- What follows a group is the end of the tokens. -/
theorem skipGroup_suffix (ts : List Token) : skipGroup ts <:+ ts := by
  unfold skipGroup
  cases h : afterClose 0 ts with
  | none => exact List.nil_suffix
  | some rest =>
    obtain ⟨t, hrest⟩ := afterClose_suffix h
    exact (List.suffix_cons t rest).trans hrest

/-- What follows a closing angle bracket stands behind that bracket. -/
theorem afterAngle_suffix {depth : Nat} {ts rest : List Token}
    (h : afterAngle depth ts = some rest) : ∃ t, t :: rest <:+ ts := by
  fun_induction afterAngle depth ts with
  | case1 | case5 => cases h
  | case2 _ _ _ _ ih => exact (ih h).imp fun _ h => h.trans (List.suffix_cons ..)
  | case3 t => cases h; exact ⟨t, List.suffix_refl _⟩
  | case4 _ _ _ _ _ ih =>
    exact (ih h).imp fun _ h => h.trans (List.suffix_cons ..)
  | case6 _ _ _ _ _ _ ih =>
    exact (ih h).imp fun _ h => h.trans (List.suffix_cons ..)

/-- What follows an angle group is the end of the tokens. -/
theorem skipAngle_suffix (ts : List Token) : skipAngle ts <:+ ts := by
  unfold skipAngle
  cases h : afterAngle 0 ts with
  | none => exact List.suffix_refl ts
  | some rest =>
    obtain ⟨t, hrest⟩ := afterAngle_suffix h
    exact (List.suffix_cons t rest).trans hrest

-- ==================================================== innermost part

/-- What follows the innermost bracket left open; `opened` holds what
follows each bracket open so far, the innermost first. -/
def innermostFrom (opened : List (List Token)) :
    List Token → Option (List Token)
  | [] => opened.head?
  | t :: ts =>
    if t.opens then innermostFrom (ts :: opened) ts
    else if t.closes then innermostFrom opened.tail ts
    else innermostFrom opened ts

/-- What follows the last comma outside all brackets, or `found` if there is
none. With `bars`, the commas between two bars belong to a parameter
list. -/
def lastArgument (bars : Bool) (found : List Token) (depth : Nat)
    (inBars : Bool) : List Token → List Token
  | [] => found
  | t :: ts =>
    if t.opens then lastArgument bars found (depth + 1) inBars ts
    else if t.closes then lastArgument bars found (depth - 1) inBars ts
    else if t.text == "|" && depth == 0 && bars then
      lastArgument bars found depth (!inBars) ts
    else if t.text == "," && depth == 0 && !inBars then
      lastArgument bars ts depth inBars ts
    else lastArgument bars found depth inBars ts

/-- The innermost expression at the end of a header: what follows the
innermost bracket left open and, within it, the last comma. -/
def innermost (bars : Bool) (ts : List Token) : List Token :=
  let inside := (innermostFrom [] ts).getD ts
  lastArgument bars inside 0 false inside

end Marginalia
