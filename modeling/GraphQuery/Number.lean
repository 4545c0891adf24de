import GraphQuery.Decimal.Form
import GraphQuery.Decimal.Reading
import GraphQuery.Value.Basic

/-! # Numbers

Delays, durations and limits are integers of any size or floats, and stay what they were given
as. An integer and a float are compared exactly. Arithmetic between the two is done in floats; it
has no result if the integer is beyond their range.
-/

namespace GraphQuery

/-- An integer or a float. -/
inductive Number where
  | int (i : Int)
  | float (x : Float)
  deriving Inhabited

namespace FloatForm

def roundUp (negative : Bool) (mantissa : Nat) (exponent : Int) : Int :=
  let (numerator, denominator) := fraction mantissa exponent
  if negative then -(numerator / denominator : Nat)
  else ((numerator + denominator - 1) / denominator : Nat)

/-- A fraction rounded toward zero. -/
def truncate (negative : Bool) (mantissa : Nat) (exponent : Int) : Int :=
  let (numerator, denominator) := fraction mantissa exponent
  Decimal.withSign negative (numerator / denominator)

/-- Compares an integer with a float; nothing compares with what is not a number. -/
def compareInt (i : Int) : FloatForm → Option Ordering
  | nan => none
  | infinite negative => some (if negative then .gt else .lt)
  | finite negative mantissa exponent =>
    let (numerator, denominator) := fraction mantissa exponent
    some (compare (i * denominator) (Decimal.withSign negative numerator))

end FloatForm

namespace Number

/-- The number that a value is. Truth values count as one and zero. -/
def ofValue? : Value → Option Number
  | .bool b => some (.int (if b then 1 else 0))
  | .int i => some (.int i)
  | .float x => some (.float x)
  | _ => none

def toValue : Number → Value
  | .int i => .int i
  | .float x => .float x

/-- Compares two numbers exactly; nothing compares with what is not a number. -/
def compare? : Number → Number → Option Ordering
  | .int i, .int j => some (compare i j)
  | .int i, .float y => (FloatForm.ofFloat y).compareInt i
  | .float x, .int j => ((FloatForm.ofFloat x).compareInt j).map Ordering.swap
  | .float x, .float y =>
    if x < y then some .lt else if x == y then some .eq else if y < x then some .gt else none

/-- Whether the first number is less than the second. -/
def less (a b : Number) : Bool :=
  compare? a b == some .lt

/-- Whether the first number is at least the second. -/
def atLeast (a b : Number) : Bool :=
  compare? a b == some .gt || compare? a b == some .eq

/-- The float nearest to a number, if the number is within their range. -/
def toFloat? : Number → Option Float
  | .int i =>
    let x := Decimal.toFloat ⟨i.natAbs, 0⟩
    if x.isInf then none else some (if i < 0 then -x else x)
  | .float x => some x

def add? : Number → Number → Option Number
  | .int i, .int j => some (.int (i + j))
  | a, b => a.toFloat?.bind fun x => b.toFloat?.map fun y => .float (x + y)

def sub? : Number → Number → Option Number
  | .int i, .int j => some (.int (i - j))
  | a, b => a.toFloat?.bind fun x => b.toFloat?.map fun y => .float (x - y)

def mul? : Number → Number → Option Number
  | .int i, .int j => some (.int (i * j))
  | a, b => a.toFloat?.bind fun x => b.toFloat?.map fun y => .float (x * y)

/-- Divides a number by `10 ^ places`, rounding the exact quotient once. -/
def overPowerOfTen? (places : Nat) : Number → Option Float
  | .int i =>
    let x := Decimal.toFloat ⟨i.natAbs, -places⟩
    if x.isInf then none else some (if i < 0 then -x else x)
  | .float x => some (x / Decimal.toFloat ⟨1, places⟩)

end Number

end GraphQuery
