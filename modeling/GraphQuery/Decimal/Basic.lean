/-! # Decimal numbers

A decimal is a coefficient with a power of ten. It is written positionally or with an exponent;
which of the two, and whether a whole number keeps a fraction part, is a matter of style.
-/

namespace GraphQuery

/-- The number `coefficient · 10 ^ scale`. -/
structure Decimal where
  coefficient : Nat
  scale : Int
  deriving DecidableEq, Repr

namespace Decimal

/-- The number of decimal digits of a number. -/
def digitCount (n : Nat) : Nat :=
  (Nat.toDigits 10 n).length

/-- The power of ten `10 ^ k`, as numerator and denominator. -/
def powerOfTen (k : Int) : Nat × Nat :=
  (Nat.pow 10 k.toNat, Nat.pow 10 (-k).toNat)

/-- The largest `p` with `10 ^ p ≤ numerator / denominator`, for a positive fraction. -/
def leadingExponent (numerator denominator : Nat) : Int :=
  if denominator ≤ numerator then (digitCount (numerator / denominator) : Int) - 1
  else -(digitCount ((denominator - 1) / numerator) : Int)

/-- A quotient rounded to the nearest number, a half to the even one. -/
def roundQuotient (numerator denominator : Nat) : Nat :=
  let low := numerator / denominator
  let rest := 2 * (numerator % denominator)
  if rest < denominator then low
  else if denominator < rest then low + 1
  else if low % 2 = 0 then low else low + 1

/-- How a decimal is written: from which exponent on it is not positional, and what is added to a
whole number. -/
structure Style where
  exponential : Int
  wholeMark : List Char

/-- Drops zeros at the end, but never the first digit. -/
def significant (digits : List Char) : List Char :=
  match (digits.reverse.dropWhile (· = '0')).reverse with
  | [] => ['0']
  | kept => kept

/-- An exponent: its sign and at least two digits. -/
def exponentMark (exponent : Int) : List Char :=
  let digits := Nat.toDigits 10 exponent.natAbs
  'e' :: (if exponent < 0 then '-' else '+') ::
    (if digits.length < 2 then '0' :: digits else digits)

/-- Writes `d₁.d₂d₃… · 10 ^ exponent` in positional notation. -/
def positional (wholeMark : List Char) (digits : List Char) (exponent : Int) : List Char :=
  if exponent < 0 then '0' :: '.' :: List.replicate ((-exponent).toNat - 1) '0' ++ digits
  else
    let whole := exponent.toNat + 1
    if digits.length ≤ whole then digits ++ List.replicate (whole - digits.length) '0' ++ wholeMark
    else digits.take whole ++ '.' :: digits.drop whole

/-- Writes `d₁.d₂d₃… · 10 ^ exponent` with an exponent. -/
def exponential (digits : List Char) (exponent : Int) : List Char :=
  match digits with
  | [] => exponentMark exponent
  | [digit] => digit :: exponentMark exponent
  | first :: rest => first :: '.' :: rest ++ exponentMark exponent

/-- The written form of a decimal in a style. Zero has the exponent zero. -/
def write (style : Style) (d : Decimal) : List Char :=
  let all := Nat.toDigits 10 d.coefficient
  let exponent := if d.coefficient = 0 then 0 else (all.length : Int) - 1 + d.scale
  let digits := significant all
  if -4 ≤ exponent && exponent < style.exponential then positional style.wholeMark digits exponent
  else exponential digits exponent

end Decimal

end GraphQuery
