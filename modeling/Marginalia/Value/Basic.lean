/-
Values of configuration documents.

A document read from a file holds whatever its author wrote: nothing, a
truth value, a number, a text, bytes, a date, a moment, a list or a mapping
whose keys may be any of these but collections; also sets, and the pairs
of an ordered mapping. Mappings keep the order in which their keys first
appeared, and a key written again takes the later value.
-/
import Marginalia.Decimal.Shortest
import Marginalia.Text.Integer
import Marginalia.Value.Moment

namespace Marginalia

/-- A value of a document. -/
inductive Value where
  | null
  | bool (b : Bool)
  | int (n : Int)
  | float (x : Float)
  | str (s : String)
  | bytes (data : List Nat)
  | date (date : Date)
  | moment (moment : Moment)
  | list (items : List Value)
  | map (entries : List (Value × Value))
  | set (items : List Value)
  | pair (first second : Value)
  deriving Repr, Inhabited

namespace Value

-- =========================================================== numbers

/-- The integer that a truth value or an integer is. -/
def integer? : Value → Option Int
  | bool b => some (if b then 1 else 0)
  | int n => some n
  | _ => none

/-- The greatest whole number that is not above a number. -/
def floor? : Value → Option Int
  | float x =>
    some (if x < 0 then -Int.ofNat (-x).ceil.toUInt64.toNat
      else x.floor.toUInt64.toNat)
  | v => v.integer?

/-- How an integer compares with `± mantissa · 2^exponent`. -/
def compareScaled (n : Int) (negative : Bool) (mantissa : Nat)
    (exponent : Int) : Ordering :=
  let size : Int := if negative then -(mantissa : Int) else mantissa
  compare (n * Nat.pow 2 (-exponent).toNat) (size * Nat.pow 2 exponent.toNat)

/-- How an integer compares with a floating-point number; nothing compares
with what is no number. -/
def compareFloat? (n : Int) (x : Float) : Option Ordering :=
  match Decimal.decode x.toBits.toNat with
  | .notANumber => none
  | .infinite negative => some (if negative then .gt else .lt)
  | .finite negative mantissa exponent =>
    some (compareScaled n negative mantissa exponent)

/-- How two numbers compare, whatever they are written as. -/
def compare? : Value → Value → Option Ordering
  | float x, float y =>
    if x < y then some .lt
    else if y < x then some .gt
    else if x == y then some .eq
    else none
  | float x, w => w.integer?.bind fun n => (compareFloat? n x).map Ordering.swap
  | v, float y => v.integer?.bind fun n => compareFloat? n y
  | v, w => v.integer?.bind fun n => w.integer?.map fun m => compare n m

-- ============================================================== keys

/-- Whether two values are the same key of a mapping: numbers go by their
value, whatever they are written as. -/
def sameKey : Value → Value → Bool
  | null, null => true
  | str a, str b => a == b
  | bytes a, bytes b => a == b
  | date a, date b => a == b
  | moment a, moment b => a.same b
  | float x, float y => x == y || (x.isNaN && y.isNaN)
  | a, b => a.compare? b == some .eq

/-- The entries with the key's value replaced, or the entry added last. -/
def insertEntry (key value : Value) :
    List (Value × Value) → List (Value × Value)
  | [] => [(key, value)]
  | (k, v) :: entries =>
    if sameKey k key then (k, value) :: entries
    else (k, v) :: insertEntry key value entries

/-- The mapping of the entries in order, later ones winning. -/
def ofEntries (entries : List (Value × Value)) : Value :=
  map (entries.foldl (fun acc e => insertEntry e.1 e.2 acc) [])

/-- The set of the given keys. -/
def setOf (keys : List Value) : Value :=
  set ((keys.foldl (fun acc key => insertEntry key null acc) []).map (·.1))

/-- The value of a text key. -/
def get? (key : String) : Value → Option Value
  | map entries => (entries.find? fun e => sameKey e.1 (str key)).map (·.2)
  | _ => none

/-- Whether a value can be a key, which collections cannot. -/
def isKey : Value → Bool
  | list _ => false
  | map _ => false
  | set _ => false
  | _ => true

-- ========================================================== readings

/-- What a value is a collection of: a list of its items, a text of its
characters, a mapping of its keys. -/
def items? : Value → Option (List Value)
  | list items => some items
  | str s => some (s.toList.map fun c => str (String.singleton c))
  | bytes data => some (data.map fun n : Nat => int n)
  | map entries => some (entries.map (·.1))
  | set items => some items
  | pair a b => some [a, b]
  | _ => none

/-- Whether a value counts as true: nothing, zero and what is empty do not. -/
def isTruthy : Value → Bool
  | null => false
  | bool b => b
  | int n => n != 0
  | float x => x != 0
  | str s => !s.isEmpty
  | bytes data => !data.isEmpty
  | date _ => true
  | moment _ => true
  | list items => !items.isEmpty
  | map entries => !entries.isEmpty
  | set items => !items.isEmpty
  | pair .. => true

/-- Whether a number is less than one; none if the value is no number. -/
def belowOne? : Value → Option Bool
  | float x => some (x < 1)
  | v => v.integer?.map (· < 1)

-- ============================================================ digits

mutual

/-- Whether no number in the value has too many digits to be written. -/
def isWritable : Value → Bool
  | int n => Text.isWritable n
  | list items => areWritable items
  | map entries => entriesWritable entries
  | set items => areWritable items
  | pair a b => isWritable a && isWritable b
  | _ => true

/-- Whether all items can be written. -/
def areWritable : List Value → Bool
  | [] => true
  | v :: vs => isWritable v && areWritable vs

/-- Whether all keys and values can be written. -/
def entriesWritable : List (Value × Value) → Bool
  | [] => true
  | (k, v) :: entries => isWritable k && isWritable v && entriesWritable entries

end

-- ============================================================= depth

mutual

/-- How many collections are nested in a value, itself included. -/
def depth : Value → Nat
  | list items => depthOfItems items + 1
  | map entries => depthOfEntries entries + 1
  | set items => depthOfItems items + 1
  | pair a b => max (depth a) (depth b) + 1
  | _ => 0

/-- The greatest depth of the values. -/
def depthOfItems : List Value → Nat
  | [] => 0
  | v :: vs => max (depth v) (depthOfItems vs)

/-- The greatest depth of the keys and values. -/
def depthOfEntries : List (Value × Value) → Nat
  | [] => 0
  | (k, v) :: entries => max (max (depth k) (depth v)) (depthOfEntries entries)

end

end Value

end Marginalia
