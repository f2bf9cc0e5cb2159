/-
Paths of files: their parts and their suffix.

Empty parts and parts that are a single dot say nothing and are dropped.
-/
namespace Marginalia.Path

/-- The parts of a text between slashes. -/
def split : List Char → List (List Char)
  | [] => [[]]
  | c :: cs =>
    if c == '/' then [] :: split cs
    else
      match split cs with
      | part :: parts => (c :: part) :: parts
      | [] => [[c]]

/-- The parts of a path that say something. -/
def parts (path : String) : List (List Char) :=
  (split path.toList).filter fun part => !part.isEmpty && part != ['.']

/-- The slashes that a path starts with: two stay, more are one. -/
def root (path : String) : String :=
  match (path.toList.takeWhile (· == '/')).length with
  | 0 => ""
  | 2 => "//"
  | _ => "/"

/-- A path in its plain form. -/
def normal (path : String) : String :=
  let joined := root path ++ "/".intercalate ((parts path).map String.ofList)
  if joined.isEmpty then "." else joined

/-- The last part of a path. -/
def name (path : String) : List Char := (parts path).getLast?.getD []

/-- The suffix of a file's name: from its last dot on, unless that is the
first or the last character. -/
def suffixOfName (name : List Char) : List Char :=
  let afterDot := name.reverse.takeWhile (· != '.')
  let before := name.length - afterDot.length
  if afterDot.isEmpty || before ≤ 1 then [] else '.' :: afterDot.reverse

/-- The suffix of a path. -/
def suffix (path : String) : String := String.ofList (suffixOfName (name path))

end Marginalia.Path
