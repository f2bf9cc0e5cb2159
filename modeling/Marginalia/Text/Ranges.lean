/-
Sets of characters given as code-point ranges.

The character classes of this library are properties of the Unicode
standard, version 14. Each is a list of closed ranges in increasing
order; a class then is membership in its list. The class modules
(`Blank`, `Word`, `Case`, `Printable`) hold the lists, this one the
membership test they share.
-/
namespace Marginalia.Text

/-- Closed code-point ranges, in increasing order. -/
abbrev Ranges := List (Nat × Nat)

/-- Whether the character lies in one of the ranges. -/
def Ranges.covers (ranges : Ranges) (c : Char) : Bool :=
  ranges.any fun r => r.1 ≤ c.toNat && c.toNat ≤ r.2

end Marginalia.Text
