/-
Patterns: regular expressions that say which lines to pass over.

Besides the regular operators there are anchors, assertions about what
precedes or follows, references to what a group matched, and repetitions
that differ in which match they prefer. The preference matters where a
part of a pattern keeps only its first match.
-/
import Marginalia.Text.Blank
import Marginalia.Text.Fold
import Marginalia.Text.Word

namespace Marginalia

/-- A class of characters. Ranges are of code points. -/
inductive CharClass where
  | range (first last : Nat)
  | digit
  | blank
  | word
  | not (cls : CharClass)
  | anyOf (classes : List CharClass)
  deriving Repr, Inhabited

/-- Which letters count as the same. -/
inductive Folding where
  | exact
  /-- Letters that differ only in case. -/
  | letters
  /-- Letters of `A` to `Z` that differ only in case. -/
  | basicLetters
  deriving DecidableEq, Repr, Inhabited

/-- A condition on a place that takes no character. -/
inductive Anchor where
  | textStart
  | textEnd
  | lineStart
  | lineEnd
  /-- At the end of the text, or before a line feed that ends it. -/
  | lastLineEnd
  /-- Where a word starts or ends. -/
  | boundary (basic : Bool)
  /-- Where no word starts or ends, in a text that is not empty. -/
  | notBoundary (basic : Bool)
  deriving DecidableEq, Repr, Inhabited

/-- Which number of repetitions is preferred. -/
inductive Preference where
  | most
  | least
  /-- As many as possible, each by its first match, and no other number. -/
  | onlyMost
  deriving DecidableEq, Repr, Inhabited

/-- A regular expression. -/
inductive Pattern where
  | nothing
  | char (cls : CharClass) (folding : Folding)
  | anchor (condition : Anchor)
  | seq (first second : Pattern)
  | alt (first second : Pattern)
  /-- At least `least` times and, if `most` is given, at most as often. -/
  | repeated (body : Pattern) (least : Nat) (most : Option Nat)
    (preference : Preference)
  /-- What the body matches is remembered under the number. -/
  | group (number : Nat) (body : Pattern)
  /-- What the group last matched, again. -/
  | again (number : Nat) (folding : Folding)
  /-- One of two, by whether the group has matched. -/
  | given (number : Nat) (yes no : Pattern)
  /-- The body's first match only. -/
  | first (body : Pattern)
  /-- Whether the body matches from here or, if `back` is given, from so many
  characters before. -/
  | look (back : Option Nat) (holds : Bool) (body : Pattern)
  deriving Repr, Inhabited

-- =========================================================== classes

mutual

/-- Whether a character is of the class: `letters` are those it counts as, and
`small` is the one its kind is looked up by. -/
def CharClass.holds (letters : List Char) (small : Char) : CharClass → Bool
  | range first last => letters.any fun c => first ≤ c.toNat && c.toNat ≤ last
  | digit => Text.isDigit small
  | blank => Text.isBlank small
  | word => Text.isWordChar small
  | .not cls => !cls.holds letters small
  | anyOf classes => CharClass.anyHolds letters small classes

/-- Whether a character is of one of the classes. -/
def CharClass.anyHolds (letters : List Char) (small : Char) :
    List CharClass → Bool
  | [] => false
  | cls :: classes =>
    cls.holds letters small || CharClass.anyHolds letters small classes

end

/-- The letters that a character counts as, and the small one. -/
def Folding.countsAs (folding : Folding) (c : Char) : List Char × Char :=
  match folding with
  | .exact => ([c], c)
  | .letters => (Text.caseVariants c, Text.smallLetter c)
  | .basicLetters => ([c.toLower, c.toUpper], c.toLower)

/-- Whether the character is of the class. -/
def CharClass.contains (cls : CharClass) (folding : Folding) (c : Char) :
    Bool :=
  let (letters, small) := folding.countsAs c
  cls.holds letters small

/-- Whether two characters count as the same. -/
def Folding.same (folding : Folding) (a b : Char) : Bool :=
  (folding.countsAs a).2 == (folding.countsAs b).2

namespace CharClass

/-- The class of a single character. -/
def single (c : Char) : CharClass := .range c.toNat c.toNat

/-- The digits `0` to `9`. -/
def basicDigit : CharClass := .range 0x30 0x39

/-- The white space of seven-bit text. -/
def basicBlank : CharClass := .anyOf [.range 0x09 0x0d, .range 0x20 0x20]

/-- The word characters of seven-bit text. -/
def basicWord : CharClass :=
  .anyOf [.range 0x30 0x39, .range 0x41 0x5a, .range 0x5f 0x5f,
    .range 0x61 0x7a]

end CharClass

-- ============================================================ shapes

/-- The fewest and, if there is a bound, the most characters of a match, given
those of the groups. -/
def Pattern.width (groups : List (Nat × Nat × Option Nat)) :
    Pattern → Nat × Option Nat
  | nothing => (0, some 0)
  | char .. => (1, some 1)
  | anchor _ => (0, some 0)
  | seq a b =>
    let (lowA, highA) := a.width groups
    let (lowB, highB) := b.width groups
    (lowA + lowB, highA.bind fun x => highB.map (x + ·))
  | alt a b =>
    let (lowA, highA) := a.width groups
    let (lowB, highB) := b.width groups
    (min lowA lowB, highA.bind fun x => highB.map (max x ·))
  | repeated body least most _ =>
    let (low, high) := body.width groups
    (low * least,
      match high, most with
      | some 0, _ => some 0
      | _, some 0 => some 0
      | some x, some n => some (x * n)
      | _, _ => none)
  | group _ body => body.width groups
  | again n _ => ((groups.find? (·.1 == n)).map (·.2)).getD (0, some 0)
  | given _ yes no =>
    let (lowA, highA) := yes.width groups
    let (lowB, highB) := no.width groups
    (min lowA lowB, highA.bind fun x => highB.map (max x ·))
  | first body => body.width groups
  | look .. => (0, some 0)

/-- The pattern with only the given groups remembered. -/
def Pattern.keeping (numbers : List Nat) : Pattern → Pattern
  | seq a b => seq (a.keeping numbers) (b.keeping numbers)
  | alt a b => alt (a.keeping numbers) (b.keeping numbers)
  | repeated body least most preference =>
    repeated (body.keeping numbers) least most preference
  | group n body =>
    if numbers.contains n then group n (body.keeping numbers)
    else body.keeping numbers
  | given n yes no => given n (yes.keeping numbers) (no.keeping numbers)
  | first body => first (body.keeping numbers)
  | look back holds body => look back holds (body.keeping numbers)
  | other => other

end Marginalia
