/-
Numbers of YAML.

A plain scalar is a number if it has one of several forms: whole numbers in
the bases two, eight, ten and sixteen, numbers counted in sixties, numbers
with a point, infinity and no number. Underscores may part the digits.

A scalar that is said to be a number is read more freely, and it is an
error if it is none.
-/
import Marginalia.Value.Json

namespace Marginalia.Yaml

-- ============================================================= forms

/-- A text without its sign, and whether the sign was a minus. -/
def signed : List Char → Bool × List Char
  | '-' :: cs => (true, cs)
  | '+' :: cs => (false, cs)
  | cs => (false, cs)

/-- Whether a text starts with a decimal digit and goes on with digits and
underscores. -/
def isDigitRun : List Char → Bool
  | c :: cs => c.isDigit && cs.all fun d => d.isDigit || d == '_'
  | [] => false

/-- The pieces of a text between colons. -/
def splitColons : List Char → List (List Char)
  | [] => [[]]
  | c :: cs =>
    if c == ':' then [] :: splitColons cs
    else
      match splitColons cs with
      | piece :: pieces => (c :: piece) :: pieces
      | [] => [[c]]

/-- Whether a piece after a colon counts sixtieths: one or two digits, less
than sixty. -/
def isSixtieth : List Char → Bool
  | [a] => a.isDigit
  | [a, b] => '0' ≤ a && a ≤ '5' && b.isDigit
  | _ => false

/-- Whether a text counts in sixties. -/
def isSexagesimal (cs : List Char) : Bool :=
  match splitColons cs with
  | first :: more@(_ :: _) => isDigitRun first && more.all isSixtieth
  | _ => false

/-- Whether a plain scalar is a whole number. -/
def isInteger (cs : List Char) : Bool :=
  match (signed cs).2 with
  | ['0'] => true
  | '0' :: 'b' :: ds =>
    !ds.isEmpty && ds.all fun c => c == '0' || c == '1' || c == '_'
  | '0' :: 'x' :: ds =>
    !ds.isEmpty && ds.all fun c => (Text.hexValue? c).isSome || c == '_'
  | '0' :: ds => ds.all fun c => ('0' ≤ c && c ≤ '7') || c == '_'
  | digits => isDigitRun digits || isSexagesimal digits

/-- Whether a text is a power of ten after a fraction: nothing, or a letter, a
sign and digits. -/
def isExponent : List Char → Bool
  | [] => true
  | e :: sign :: digits =>
    (e == 'e' || e == 'E') && (sign == '-' || sign == '+') && !digits.isEmpty
      && digits.all Char.isDigit
  | _ => false

/-- Whether a plain scalar is a number with a point. -/
def isPointed (cs : List Char) : Bool :=
  let size := (signed cs).2
  let whole := size.takeWhile (· != '.')
  match size.dropWhile (· != '.') with
  | '.' :: after =>
    let fraction := after.takeWhile fun c => c.isDigit || c == '_'
    let rest := after.dropWhile fun c => c.isDigit || c == '_'
    if whole.isEmpty then
      cs.head? == some '.' && isDigitRun fraction && isExponent rest
    else (isDigitRun whole && isExponent rest)
      || (isSexagesimal whole && rest.isEmpty)
  | _ => false

/-- Whether a plain scalar is a floating-point number. -/
def isFloat (cs : List Char) : Bool :=
  [".inf", ".Inf", ".INF"].contains (String.ofList (signed cs).2)
    || [".nan", ".NaN", ".NAN"].contains (String.ofList cs)
    || isPointed cs

-- ===================================================== whole numbers

/-- The value of a digit of any script, or of a letter used as one. -/
def digitIn? (c : Char) : Option Nat :=
  match Text.digitValue? c with
  | some d => some d
  | none =>
    if 'a' ≤ c && c ≤ 'z' then some (c.toNat - 'a'.toNat + 10)
    else if 'A' ≤ c && c ≤ 'Z' then some (c.toNat - 'A'.toNat + 10)
    else none

/-- The letter that may announce a base after a zero. -/
def baseLetter? : Nat → Option Char
  | 2 => some 'b'
  | 8 => some 'o'
  | 16 => some 'x'
  | _ => none

/-- A text without the announcement of its base. -/
def withoutBase (base : Nat) : List Char → List Char
  | '0' :: letter :: cs =>
    if baseLetter? base == some letter.toLower then cs else '0' :: letter :: cs
  | cs => cs

/-- The whole number that a text writes in a base. Only powers of two may have
any number of digits. -/
def integerIn (base : Nat) (cs : List Char) : Except ReadError Int := do
  let (negative, size) := signed (Text.trimWhile Text.aroundInteger cs)
  match (withoutBase base size).mapM digitIn? with
  | some (d :: ds) => do
    let digits := d :: ds
    if digits.any (base ≤ ·) then throw (.badInteger base cs)
    if base == 10 && Text.maxDigits < digits.length then
      throw (.tooManyDigits digits.length)
    let n : Nat := digits.foldl (fun n d => base * n + d) 0
    return if negative then -(n : Int) else n
  | _ => throw (.badInteger base cs)

/-- The whole number without its sign. -/
def unsignedInteger : List Char → Except ReadError Int
  | [] => throw .emptyNumber
  | ['0'] => return 0
  | '0' :: 'b' :: digits => integerIn 2 digits
  | '0' :: 'x' :: digits => integerIn 16 digits
  | '0' :: digits => integerIn 8 ('0' :: digits)
  | digits =>
    if digits.contains ':' then do
      return (← (splitColons digits).mapM (integerIn 10)).foldl
        (fun n d => 60 * n + d) 0
    else integerIn 10 digits

/-- A text without its underscores. -/
def withoutScores (cs : List Char) : List Char := cs.filter (· != '_')

/-- The whole number that a scalar stands for. In a base other than ten it may
have more digits than could be written. -/
def integerOf (text : List Char) : Except ReadError Int := do
  let cs := withoutScores text
  if cs.isEmpty then throw .emptyNumber
  let (negative, size) := signed cs
  let n ← unsignedInteger size
  return if negative then -n else n

-- ============================================ floating-point numbers

/-- The floating-point number that digits with an optional point and exponent
write. -/
def pointed? (cs : List Char) : Option Float :=
  let whole := cs.takeWhile Char.isDigit
  let (fraction, rest) :=
    match cs.dropWhile Char.isDigit with
    | '.' :: after =>
      (after.takeWhile Char.isDigit, after.dropWhile Char.isDigit)
    | rest => ([], rest)
  let exponent : Option Int :=
    match rest with
    | [] => some 0
    | e :: after =>
      let (negative, digits) := signed after
      if e.toLower == 'e' && !digits.isEmpty && digits.all Char.isDigit then
        let n : Int := Text.digitsValue digits
        some (if negative then -n else n)
      else none
  if whole.isEmpty && fraction.isEmpty then none
  else
    exponent.map fun e =>
      Json.floatOf false (Text.digitsValue (whole ++ fraction))
        (e - fraction.length)

/-- A digit of any script as one of `0` to `9`. -/
def plainDigit (c : Char) : Char :=
  match Text.digitValue? c with
  | some d => Char.ofNat ('0'.toNat + d)
  | none => c

/-- The floating-point number that a text writes. -/
def decimalOf (cs : List Char) : Except ReadError Float :=
  let (negative, size) :=
    signed ((Text.trimWhile Text.aroundInteger cs).map plainDigit)
  let word := String.ofList (size.map Char.toLower)
  let x : Option Float :=
    if word == "inf" || word == "infinity" then some (1.0 / 0.0)
    else if word == "nan" then some (0.0 / 0.0)
    else pointed? size
  match x with
  | some x => return if negative then -x else x
  | none => throw (.badFloat cs)

/-- The floating-point number without its sign. -/
def unsignedFloat (cs : List Char) : Except ReadError Float := do
  if cs == ".inf".toList then return 1.0 / 0.0
  else if cs == ".nan".toList then return 0.0 / 0.0
  else if cs.contains ':' then
    let pieces ← (splitColons cs).mapM decimalOf
    return (pieces.reverse.foldl
      (fun (sum, base) x => (sum + x * base, base * 60))
        ((0.0 : Float), (1.0 : Float))).1
  else decimalOf cs

/-- The floating-point number that a scalar stands for. -/
def floatOf (text : List Char) : Except ReadError Float := do
  let cs := (withoutScores text).map Char.toLower
  if cs.isEmpty then throw .emptyNumber
  let (negative, size) := signed cs
  let x ← unsignedFloat size
  return if negative then -x else x

end Marginalia.Yaml
