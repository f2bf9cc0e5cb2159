/-
Matching patterns.

From a place in a text a pattern leads to the places where a match of it
can end, the preferred ones first. A place comes with what the groups
have matched, and no place is listed twice, so a search takes no longer
than there are places to reach, whatever the pattern.
-/
import Marginalia.Pattern.Basic

namespace Marginalia

/-- A place in a text, and what the groups matched on the way to it. -/
structure Spot where
  offset : Nat
  /-- The characters before the place, the nearest first. -/
  behind : List Char
  rest : List Char
  groups : List (Nat × List Char)

namespace Spot

/-- The start of a text. -/
def start (text : List Char) : Spot := ⟨0, [], text, []⟩

/-- The place after the next character. -/
def next? (spot : Spot) : Option Spot :=
  match spot.rest with
  | [] => none
  | c :: rest =>
    some { spot with
      offset := spot.offset + 1, behind := c :: spot.behind, rest }

/-- The place `n` characters on. -/
def forward (spot : Spot) (n : Nat) : Spot :=
  { spot with
    offset := spot.offset + n
    behind := (spot.rest.take n).reverse ++ spot.behind
    rest := spot.rest.drop n }

/-- The place `n` characters back. -/
def back? (spot : Spot) (n : Nat) : Option Spot :=
  if n ≤ spot.offset then
    some { spot with
      offset := spot.offset - n
      behind := spot.behind.drop n
      rest := (spot.behind.take n).reverse ++ spot.rest }
  else none

/-- Whether two places of a text are the same, with the same groups. -/
def same (a b : Spot) : Bool := a.offset == b.offset && a.groups == b.groups

/-- The place with what a group matched. -/
def remember (spot : Spot) (number : Nat) (text : List Char) : Spot :=
  { spot with groups := (number, text) :: spot.groups.filter (·.1 != number) }

/-- What a group matched. -/
def group? (spot : Spot) (number : Nat) : Option (List Char) :=
  (spot.groups.find? (·.1 == number)).map (·.2)

/-- Whether a character is part of a word. -/
def inWord (basic : Bool) (c : Char) : Bool :=
  if basic then CharClass.basicWord.contains .exact c else Text.isWordChar c

/-- Whether a word starts or ends at the place. -/
def atBoundary (spot : Spot) (basic : Bool) : Bool :=
  spot.behind.head?.any (inWord basic) != spot.rest.head?.any (inWord basic)

/-- Whether the condition holds at the place. -/
def meets (spot : Spot) : Anchor → Bool
  | .textStart => spot.behind.isEmpty
  | .textEnd => spot.rest.isEmpty
  | .lineStart => spot.behind.head?.all (· == '\n')
  | .lineEnd => spot.rest.head?.all (· == '\n')
  | .lastLineEnd => spot.rest.isEmpty || spot.rest == ['\n']
  | .boundary basic => spot.atBoundary basic
  | .notBoundary basic =>
    !(spot.behind.isEmpty && spot.rest.isEmpty) && !spot.atBoundary basic

end Spot

-- ======================================================== no repeats

/-- Places met so far: those without groups by their offsets, and the others. -/
structure Met where
  offsets : Nat := 0
  others : List Spot := []

/-- Whether the place was met. -/
def Met.has (met : Met) (spot : Spot) : Bool :=
  if spot.groups.isEmpty then met.offsets.testBit spot.offset
  else met.others.any (·.same spot)

/-- The places met and one more. -/
def Met.add (met : Met) (spot : Spot) : Met :=
  if spot.groups.isEmpty then
    { met with offsets := met.offsets ||| 1 <<< spot.offset }
  else { met with others := spot :: met.others }

/-- The places without those that came before. -/
def distinct (spots : List Spot) : List Spot :=
  (spots.foldl
    (fun (met, kept) spot => if met.has spot then
      (met, kept) else (met.add spot, spot :: kept))
    (({} : Met), [])).2.reverse

-- ======================================================= repetitions

/-- The places after exactly `n` steps, each taken from all places at once. -/
def afterSteps (step : List Spot → List Spot) : Nat → List Spot → List Spot
  | 0, spots => spots
  | n + 1, spots =>
    let next := step spots
    if next.isEmpty || (next.length == spots.length
        && (next.zip spots).all fun (a, b) => a.same b) then next
    else afterSteps step n next

/-- The places after at most `n` steps, each taken from all places at once.
Those in `met` were reached before and lead to nothing new. -/
def withinSteps (step : List Spot → List Spot) :
    Nat → Met → List Spot → List Spot
  | 0, _, spots => spots
  | n + 1, met, spots =>
    let fresh := (step spots).filter (!met.has ·)
    if fresh.isEmpty then spots
    else spots ++ withinSteps step n (fresh.foldl Met.add met) fresh

/-- The places explored so far, by the number of steps that were left. -/
abbrev Explored := List (Nat × Met)

/-- Whether a place was explored with that many steps left. -/
def Explored.has (explored : Explored) (left : Nat) (spot : Spot) : Bool :=
  (explored.lookup left).any (·.has spot)

/-- The places explored and one more. -/
def Explored.add (left : Nat) (spot : Spot) : Explored → Explored
  | [] => [(left, ({} : Met).add spot)]
  | (other, met) :: explored =>
    if other == left then (left, met.add spot) :: explored
    else (other, met) :: add left spot explored

/-- The places after at most `n` steps that each move on, and the places that
were explored on the way. A step that does not move is the last. How many
steps are left only matters if they are `bounded`. -/
def explore (step : Spot → List Spot) (greedy bounded : Bool) :
    Nat → Explored → Spot → List Spot × Explored
  | 0, seen, spot => ([spot], seen)
  | n + 1, seen, spot =>
    let left := if bounded then n else 0
    if seen.has left spot then ([], seen)
    else
      let (found, seen) := (step spot).foldl
        (fun (found, seen) target =>
          if target.offset == spot.offset then (target :: found, seen)
          else
            let (more, seen) := explore step greedy bounded n seen target
            (more.reverseAux found, seen))
        ([], seen.add left spot)
      (if greedy then found.reverseAux [spot] else spot :: found.reverse, seen)

/-- The places after `least` to `most` steps, preferred ones first. -/
def repeatedEnds (step : Spot → List Spot) (least : Nat) (most : Option Nat)
    (greedy : Bool) (spot : Spot) : List Spot :=
  let longest := spot.rest.length + 1
  let (limit, bounded) :=
    match most with
    | none => (longest, false)
    | some most =>
      if most - least < longest then (most - least, true) else (longest, false)
  let steps (spots : List Spot) : List Spot := distinct (spots.flatMap step)
  distinct ((afterSteps steps least [spot]).flatMap fun start =>
    (explore step greedy bounded limit [] start).1)

/-- The place after `n` first steps. -/
def firstSteps (step : Spot → List Spot) : Nat → Spot → Option Spot
  | 0, spot => some spot
  | n + 1, spot =>
    match step spot with
    | [] => none
    | target :: _ =>
      if target.same spot then some spot else firstSteps step n target

/-- The place after as many first steps as possible, `most` at the most; a
step that does not move is the last. -/
def greediest (step : Spot → List Spot) : Nat → Option Nat → Spot → Spot
  | 0, _, spot => spot
  | fuel + 1, most, spot =>
    if most == some 0 then spot
    else
      match step spot with
      | [] => spot
      | target :: _ =>
        if target.offset == spot.offset then target
        else greediest step fuel (most.map (· - 1)) target

/-- The places after zero, one, two and more characters of a class, at most
`most` of them, the farthest first. -/
def charRun (accept : Char → Bool) :
    Option Nat → List Spot → Spot → List Char → List Spot
  | _, passed, spot, [] => spot :: passed
  | most, passed, spot, c :: rest =>
    if most != some 0 && accept c then
      charRun accept (most.map (· - 1)) (spot :: passed)
        { spot with
          offset := spot.offset + 1, behind := c :: spot.behind, rest } rest
    else spot :: passed

-- ========================================================== patterns

/-- The places where a match of the pattern from the place can end, preferred
ones first. -/
def Pattern.ends (pattern : Pattern) (spot : Spot) : List Spot :=
  match pattern with
  | nothing => [spot]
  | char cls folding =>
    if spot.rest.head?.any (cls.contains folding) then spot.next?.toList else []
  | anchor condition => if spot.meets condition then [spot] else []
  | seq a b => distinct ((a.ends spot).flatMap fun s => b.ends s)
  | alt a b => distinct (a.ends spot ++ b.ends spot)
  | repeated (char cls folding) least most preference =>
    let places := charRun (cls.contains folding) most [] spot spot.rest
    let run := places.take (places.length - least)
    match preference with
    | .most => run
    | .least => run.reverse
    | .onlyMost => run.take 1
  | repeated body least most preference =>
    match preference with
    | .most => repeatedEnds (fun s => body.ends s) least most true spot
    | .least => repeatedEnds (fun s => body.ends s) least most false spot
    | .onlyMost =>
      ((firstSteps (fun s => body.ends s) least spot).map
        (greediest (fun s => body.ends s) (spot.rest.length + 1)
          (most.map (· - least)))).toList
  | group n body =>
    distinct ((body.ends spot).map fun s =>
      s.remember n (spot.rest.take (s.offset - spot.offset)))
  | again n folding =>
    match spot.group? n with
    | none => []
    | some text =>
      let here := spot.rest.take text.length
      if here.length == text.length && (here.zip text).all fun (a, b) =>
          folding.same a b then
        [spot.forward text.length]
      else []
  | given n yes no =>
    if (spot.group? n).isSome then yes.ends spot else no.ends spot
  | first body => (body.ends spot).take 1
  | look back holds body =>
    let found :=
      ((back.elim (some spot) spot.back?).map fun s => body.ends s).getD []
    match found, holds with
    | s :: _, true => [{ spot with groups := s.groups }]
    | [], false => [spot]
    | _, _ => []

/-- Whether the pattern remembers what a group matches. -/
def Pattern.remembers : Pattern → Bool
  | seq a b => a.remembers || b.remembers
  | alt a b => a.remembers || b.remembers
  | repeated body .. => body.remembers
  | group .. => true
  | given _ yes no => yes.remembers || no.remembers
  | first body => body.remembers
  | look _ _ body => body.remembers
  | _ => false

/-- The places where matches from any of the places can end, in no particular
order. -/
def Pattern.endsFromAny (pattern : Pattern) (spots : List Spot) : List Spot :=
  match pattern with
  | seq a b => b.endsFromAny (a.endsFromAny spots)
  | alt a b => distinct (a.endsFromAny spots ++ b.endsFromAny spots)
  | repeated body least most preference =>
    if preference == .onlyMost || body.remembers then
      distinct (spots.flatMap fun s =>
        (repeated body least most preference).ends s)
    else
      let longest := (spots.map (·.rest.length)).foldl max 0 + 1
      let limit :=
        (most.map fun most => min (most - least) longest).getD longest
      let starts := afterSteps (fun spots => body.endsFromAny spots) least spots
      withinSteps (fun spots => body.endsFromAny spots) limit
        (starts.foldl Met.add {}) starts
  | other => distinct (spots.flatMap fun s => other.ends s)

/-- Every place of a text. -/
def allSpots (text : List Char) : List Spot :=
  charRun (fun _ => true) none [] (.start text) text

/-- Whether the pattern matches somewhere in the text. Places that differ in
what groups matched are many, so they are reached from one start at a time. -/
def Pattern.matchesIn (pattern : Pattern) (text : List Char) : Bool :=
  if pattern.remembers then
    (allSpots text).any fun s => !(pattern.endsFromAny [s]).isEmpty
  else !(pattern.endsFromAny (allSpots text)).isEmpty

end Marginalia
