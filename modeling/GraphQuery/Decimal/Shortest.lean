import GraphQuery.Decimal.Basic
import GraphQuery.Decimal.Form

/-! # The shortest decimal that reads back

Between two neighbouring floats lies an interval of numbers that are read as the float in it. The
shortest decimal of a float is the point of the coarsest decimal grid in that interval, and on that
grid the point nearest to the float. If any point of a grid lies in the interval then one of the
two grid points next to the float does, so only those two are tried.
-/

namespace GraphQuery.Decimal

/-- One grid of decimals around a float. All numbers are given in a common unit, a quarter of the
distance to the next float. -/
structure Grid where
  /-- The distance of two grid points, as a number of units. -/
  step : Nat
  /-- How many of these units make a quarter of the distance to the next float. -/
  quarter : Nat

/-- The grid with distance `10 ^ scale` for floats with the given exponent. -/
def Grid.at (exponent scale : Int) : Grid :=
  let (tens, overTens) := powerOfTen scale
  let (twos, overTwos) := FloatForm.fraction 1 (exponent - 2)
  ⟨tens * overTwos, twos * overTens⟩

/-- Whether a number of common units is read back as the float with this mantissa: it may be at
most half a distance away, and exactly half of it only if the mantissa is even. Below a power of
two the distance to the previous float is half as large. -/
def Grid.readsBack (grid : Grid) (mantissa : Nat) (exponent : Int) (units : Nat) : Bool :=
  let narrow := mantissa = FloatForm.leastNormal && FloatForm.leastExponent < exponent
  let lowest := (4 * mantissa - if narrow then 1 else 2) * grid.quarter
  let highest := (4 * mantissa + 2) * grid.quarter
  (lowest < units && units < highest) || (mantissa % 2 = 0 && (units = lowest || units = highest))

/-- The grid point next to the float that reads back, the nearer one of two, the even one of two
that are equally near. -/
def Grid.pick (grid : Grid) (mantissa : Nat) (exponent : Int) : Option Nat :=
  let exact := 4 * mantissa * grid.quarter
  let low := exact / grid.step
  let lowHits := grid.readsBack mantissa exponent (low * grid.step)
  let highHits := grid.readsBack mantissa exponent ((low + 1) * grid.step)
  if lowHits && highHits then some (roundQuotient exact grid.step)
  else if lowHits then some low
  else if highHits then some (low + 1)
  else none

/-- The shortest decimal that is read as the positive float `mantissa · 2 ^ exponent`. Seventeen
digits are always enough. -/
def shortest (mantissa : Nat) (exponent : Int) : Decimal :=
  let (numerator, denominator) := FloatForm.fraction mantissa exponent
  let leading := leadingExponent numerator denominator
  let attempt (digits : Nat) : Option Decimal :=
    let scale := leading - digits
    ((Grid.at exponent scale).pick mantissa exponent).map (⟨·, scale⟩)
  ((List.range 17).findSome? attempt).getD ⟨numerator / denominator, 0⟩

example : shortest (2 ^ 52 + 2702159776422298) (-56) = ⟨1, -1⟩ := by decide +kernel
example : shortest 1 (-1074) = ⟨5, -324⟩ := by decide +kernel

end GraphQuery.Decimal
