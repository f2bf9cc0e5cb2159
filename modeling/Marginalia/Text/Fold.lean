/-
Letters that differ only in case.

Two letters are the same but for case if they have the same small letter,
or if their small letters are alike: a few letters have two small forms
that share a capital, such as the two sigmas.
-/
import Marginalia.Text.Case

namespace Marginalia.Text

/-- Small letters that share a capital. -/
def alikeLetters : List (List Char) :=
  [
    ['i', '\u0131'], ['s', '\u017f'], ['\u00b5', '\u03bc'],
    ['\u0345', '\u03b9', '\u1fbe'], ['\u0390', '\u1fd3'], ['\u03b0', '\u1fe3'],
    ['\u03b2', '\u03d0'], ['\u03b5', '\u03f5'], ['\u03b8', '\u03d1'],
    ['\u03ba', '\u03f0'], ['\u03c0', '\u03d6'], ['\u03c1', '\u03f1'],
    ['\u03c2', '\u03c3'], ['\u03c6', '\u03d5'], ['\u0432', '\u1c80'],
    ['\u0434', '\u1c81'], ['\u043e', '\u1c82'], ['\u0441', '\u1c83'],
    ['\u0442', '\u1c84', '\u1c85'], ['\u044a', '\u1c86'], ['\u0463', '\u1c87'],
    ['\u1c88', '\ua64b'], ['\u1e61', '\u1e9b'], ['\ufb05', '\ufb06']]

/-- The small letter of a character. -/
def smallLetter (c : Char) : Char :=
  if c == '\u0130' then 'i' else (lowerChar c).headD c

/-- The letter of the run whose lower-case form the character is. -/
def CaseRun.capitalOf? (r : CaseRun) (c : Char) : Option Char :=
  let n := c.toNat
  if r.lower ≤ n && n - r.lower ≤ r.last - r.first
      && (n - r.lower) % r.step == 0 then
    some (Char.ofNat (r.first + (n - r.lower)))
  else none

/-- The letters whose small letter the character is, itself apart. -/
def capitalsOf (c : Char) : List Char :=
  (if 'a' ≤ c && c ≤ 'z' then [c.toUpper] else [])
    ++ (if c == 'i' then ['\u0130'] else [])
    ++ caseRuns.filterMap (·.capitalOf? c)

/-- The letters that are the same as the character but for case. -/
def caseVariants (c : Char) : List Char :=
  let small := smallLetter c
  let alike := (alikeLetters.find? (·.contains small)).getD [small]
  alike.flatMap fun letter => letter :: capitalsOf letter

end Marginalia.Text
