import GraphQuery.Decimal.Basic
import GraphQuery.Decimal.Form

/-! # Rounded decimals

Reports show floats with a fixed number of places or with six significant digits. Both round the
exact value of the float, and a half goes to the even neighbour.
-/

namespace GraphQuery.Decimal

/-- A fraction rounded to a multiple of `10 ^ scale`. -/
def rounded (numerator denominator : Nat) (scale : Int) : Decimal :=
  let (tens, overTens) := powerOfTen scale
  ⟨roundQuotient (numerator * overTens) (denominator * tens), scale⟩

/-- A fraction rounded to a number of significant digits. -/
def roundedTo (digits : Nat) (numerator denominator : Nat) : Decimal :=
  if numerator = 0 then ⟨0, 0⟩
  else rounded numerator denominator (leadingExponent numerator denominator - digits + 1)

/-- The digits of a number of `10 ^ -places`, with the point before the last `places` of them. -/
def placed (places : Nat) (units : Nat) : List Char :=
  let digits := Nat.toDigits 10 units
  let padded := List.replicate (places + 1 - digits.length) '0' ++ digits
  let whole := padded.length - places
  if places = 0 then padded else padded.take whole ++ '.' :: padded.drop whole

end GraphQuery.Decimal
