/-! # What a float stands for

A float is not a number, an infinity, or a fraction `± mantissa · 2 ^ exponent`. Printing, rounding
and comparing with integers are exact arithmetic on that fraction.
-/

namespace GraphQuery

/-- The reading of a float. -/
inductive FloatForm where
  | nan
  | infinite (negative : Bool)
  | finite (negative : Bool) (mantissa : Nat) (exponent : Int)
  deriving DecidableEq, Repr

namespace FloatForm

def leastExponent : Int := -1074

/-- The mantissa at which the spacing of floats doubles. -/
def leastNormal : Nat := Nat.pow 2 52

/-- Reads the sign, the exponent and the fraction off the encoding. -/
def ofFloat (x : Float) : FloatForm :=
  let bits := x.toBits.toNat
  let negative := decide (Nat.pow 2 63 ≤ bits)
  let biased : Nat := bits / leastNormal % 2048
  let fraction := bits % leastNormal
  if biased = 2047 then if fraction = 0 then infinite negative else nan
  else if biased = 0 then finite negative fraction leastExponent
  else finite negative (leastNormal + fraction) (leastExponent + biased - 1)

/-- Numerator and denominator of `mantissa · 2 ^ exponent`. -/
def fraction (mantissa : Nat) (exponent : Int) : Nat × Nat :=
  (mantissa * Nat.pow 2 exponent.toNat, Nat.pow 2 (-exponent).toNat)

example : ofFloat (-0.75) = finite true (3 * 2 ^ 51) (-53) := by decide +kernel
example : ofFloat (1.0 / 0.0) = infinite false := by decide +kernel

end FloatForm

end GraphQuery
