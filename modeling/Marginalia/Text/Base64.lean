/-
Bytes written in base 64.

Four characters write three bytes. Characters outside the alphabet are
passed over, and a run of padding that completes the last four ends the
text.
-/
namespace Marginalia.Text

/-- The value of a character of the alphabet. -/
def base64Value? (c : Char) : Option Nat :=
  if 'A' ≤ c && c ≤ 'Z' then some (c.toNat - 'A'.toNat)
  else if 'a' ≤ c && c ≤ 'z' then some (c.toNat - 'a'.toNat + 26)
  else if '0' ≤ c && c ≤ '9' then some (c.toNat - '0'.toNat + 52)
  else if c == '+' then some 62
  else if c == '/' then some 63
  else none

/-- The character of a value below 64. -/
def base64Char (n : Nat) : Char :=
  if n < 26 then Char.ofNat ('A'.toNat + n)
  else if n < 52 then Char.ofNat ('a'.toNat + (n - 26))
  else if n < 62 then Char.ofNat ('0'.toNat + (n - 52))
  else if n == 62 then '+'
  else '/'

/-- The bytes that a text writes, after `bytes` in reverse. `group` is how many
characters of the current four were read, `left` the bits that are left of
them, and `pads` how many padding characters came last. -/
def base64From (bytes : List Nat) (group left pads : Nat) :
    List Char → Option (List Nat)
  | [] => if group == 0 then some bytes.reverse else none
  | c :: cs =>
    if c == '=' then
      if 2 ≤ group && 4 ≤ group + pads + 1 then some bytes.reverse
      else base64From bytes group left (if 2 ≤ group then pads + 1 else pads) cs
    else
      match base64Value? c with
      | none => base64From bytes group left pads cs
      | some v =>
        match group with
        | 0 => base64From bytes 1 v 0 cs
        | 1 => base64From ((left * 4 + v / 16) :: bytes) 2 (v % 16) 0 cs
        | 2 => base64From ((left * 16 + v / 4) :: bytes) 3 (v % 4) 0 cs
        | _ => base64From ((left * 64 + v) :: bytes) 0 0 0 cs

/-- The bytes that a text writes. -/
def fromBase64? (cs : List Char) : Option (List Nat) := base64From [] 0 0 0 cs

/-- The characters that write bytes. -/
def toBase64 : List Nat → List Char
  | [] => []
  | [a] => [base64Char (a / 4), base64Char (a % 4 * 16), '=', '=']
  | [a, b] =>
    [base64Char (a / 4), base64Char (a % 4 * 16 + b / 16),
     base64Char (b % 16 * 4), '=']
  | a :: b :: c :: bytes =>
    base64Char (a / 4) :: base64Char (a % 4 * 16 + b / 16)
      :: base64Char (b % 16 * 4 + c / 64) :: base64Char (c % 64)
      :: toBase64 bytes

end Marginalia.Text
