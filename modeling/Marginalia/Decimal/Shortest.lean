/-
The shortest decimal that stands for a binary floating-point number.

A finite double is `m · 2^q`. The decimals that read back as it fill an
interval around it, whose ends belong to it when `m` is even. Of those
decimals we want one that is a multiple of the largest possible power of
ten, which is one with the fewest digits, and of two such the nearer. All
of it is exact arithmetic on natural numbers.
-/
namespace Marginalia.Decimal

/-- A number `digits · 10^exponent`. -/
structure Scaled where
  digits : Nat
  exponent : Int
  deriving DecidableEq, Repr

/-- What the bits of a double mean. -/
inductive Decoded where
  | notANumber
  | infinite (negative : Bool)
  /-- The number `± mantissa · 2^exponent`. -/
  | finite (negative : Bool) (mantissa : Nat) (exponent : Int)
  deriving DecidableEq, Repr

/-- The bit in front of the 52 stored bits of a fraction. -/
def leadingBit : Nat := 0x10000000000000

/-- The meaning of the bits of a double. -/
def decode (bits : Nat) : Decoded :=
  let negative := bits.testBit 63
  let field : Nat := bits / leadingBit % 2048
  let fraction := bits % leadingBit
  if field == 2047 then
    if fraction == 0 then .infinite negative else .notANumber
  else if field == 0 then .finite negative fraction (-1074)
  else .finite negative (leadingBit + fraction) ((field : Int) - 1075)

/-- A number `n · 2^q` and a power of ten `10^e` brought to a common
denominator: their numerators. -/
def align (n : Nat) (q e : Int) : Nat × Nat :=
  (n * Nat.pow 2 q.toNat * Nat.pow 10 (-e).toNat,
    Nat.pow 10 e.toNat * Nat.pow 2 (-q).toNat)

/-- Whether `d · 10^e` reads back as `m · 2^q`. Below a power of two the
neighbour is only half as far away, unless the double is subnormal. -/
def readsBack (m : Nat) (q : Int) (d : Nat) (e : Int) : Bool :=
  let below := if m == leadingBit && q > -1074 then 1 else 2
  let (low, unit) := align (4 * m - below) (q - 2) e
  let (high, _) := align (4 * m + 2) (q - 2) e
  if m % 2 == 0 then low ≤ d * unit && d * unit ≤ high
  else low < d * unit && d * unit < high

/-- The multiple of `10^e` nearest to `m · 2^q` that reads back as it. -/
def multiple? (m : Nat) (q : Int) (e : Int) : Option Nat :=
  let (value, unit) := align m q e
  let d := value / unit
  match readsBack m q d e, readsBack m q (d + 1) e with
  | true, true => if 2 * (value % unit) ≤ unit then some d else some (d + 1)
  | true, false => some d
  | false, true => some (d + 1)
  | false, false => none

/-- The shortest decimal for `m · 2^q` among the multiples of `10^e` with
`e < n - 345`, by decreasing `e`. -/
def searchBelow (m : Nat) (q : Int) : Nat → Scaled
  | 0 => ⟨0, 0⟩
  | n + 1 =>
    let e : Int := n - 345
    match multiple? m q e with
    | some d => ⟨d, e⟩
    | none => searchBelow m q n

/-- The shortest decimal for `m · 2^q`, a finite double that is not zero. -/
def shortest (m : Nat) (q : Int) : Scaled := searchBelow m q 660

-- ============================================================ layout

/-- How floating-point numbers are written. -/
structure Layout where
  /-- Numbers from `10^smallest` up are written positionally. -/
  smallest : Int
  /-- Numbers from `10^largest` up are written with an exponent. -/
  largest : Int
  /-- The least number of digits in an exponent. -/
  exponentDigits : Nat

/-- Positional from 0.0001 up to 10^16, exponents of two digits. -/
def plainLayout : Layout := ⟨-4, 16, 2⟩

/-- An exponent with its sign, padded to the layout's width. -/
def Layout.exponent (layout : Layout) (e : Int) : String :=
  let digits := toString e.natAbs
  let zeros :=
    String.ofList (List.replicate (layout.exponentDigits - digits.length) '0')
  (if e < 0 then "-" else "+") ++ zeros ++ digits

/-- The digits of a decimal laid out; a fraction part always remains in
positional form. -/
def Layout.write (layout : Layout) (x : Scaled) : String :=
  let digits := (toString x.digits).toList
  let point := digits.length + x.exponent
  let lead := point - 1
  let zeros (n : Int) := List.replicate n.toNat '0'
  if layout.smallest ≤ lead && lead < layout.largest then
    if point ≤ 0 then String.ofList (['0', '.'] ++ zeros (-point) ++ digits)
    else
      let fraction := digits.drop point.toNat
      String.ofList
        (digits.take point.toNat ++ zeros (point - digits.length) ++ ['.']
          ++ if fraction.isEmpty then ['0'] else fraction)
  else
    let fraction := digits.drop 1
    String.ofList
        (digits.take 1 ++ if fraction.isEmpty then [] else '.' :: fraction)
      ++ "e" ++ layout.exponent lead

/-- Words for the values that are no finite number. -/
structure Specials where
  notANumber : String
  infinite : String
  negativeInfinite : String

/-- The text of a double. -/
def textOf (layout : Layout) (specials : Specials) (x : Float) : String :=
  match decode x.toBits.toNat with
  | .notANumber => specials.notANumber
  | .infinite negative =>
    if negative then specials.negativeInfinite else specials.infinite
  | .finite negative m q =>
    (if negative then "-" else "")
      ++ if m == 0 then "0.0" else layout.write (shortest m q)

end Marginalia.Decimal
