import GraphQuery.Decimal.Shortest
import GraphQuery.Decimal.Rounded

/-! # Floats as text

A float is written with the shortest decimal that reads back, positionally from `0.0001` up to
`10 ^ 16` and with `.0` at a whole number. Messages name what is not a finite number `nan` and
`inf`; documents and queries name it `NaN` and `Infinity`.
-/

namespace GraphQuery.Decimal

/-- Shortest decimals keep a fraction part and turn exponential at `10 ^ 16`. -/
def shortestStyle : Style := ⟨16, ['.', '0']⟩

/-- General decimals have no empty fraction part and turn exponential at their precision. -/
def generalStyle : Style := ⟨6, []⟩

def signed (negative : Bool) (cs : List Char) : List Char :=
  if negative then '-' :: cs else cs

/-- The characters of a float, given the names of what is not a finite number. -/
def floatChars (nan infinity : List Char) (x : Float) : List Char :=
  match FloatForm.ofFloat x with
  | .nan => nan
  | .infinite negative => signed negative infinity
  | .finite negative mantissa exponent =>
    signed negative
      (if mantissa = 0 then write shortestStyle ⟨0, 0⟩
       else write shortestStyle (shortest mantissa exponent))

def display (x : Float) : String :=
  String.ofList (floatChars ['n', 'a', 'n'] ['i', 'n', 'f'] x)

/-- A float as documents and queries hold it. -/
def literal (x : Float) : String :=
  String.ofList (floatChars "NaN".toList "Infinity".toList x)

def fixed (places : Nat) (x : Float) : String :=
  String.ofList <|
    match FloatForm.ofFloat x with
    | .nan => ['n', 'a', 'n']
    | .infinite negative => signed negative ['i', 'n', 'f']
    | .finite negative mantissa exponent =>
      let (numerator, denominator) := FloatForm.fraction mantissa exponent
      signed negative (placed places (rounded numerator denominator (-places)).coefficient)

/-- A float with six significant digits and no needless zeros. -/
def general (x : Float) : String :=
  String.ofList <|
    match FloatForm.ofFloat x with
    | .nan => ['n', 'a', 'n']
    | .infinite negative => signed negative ['i', 'n', 'f']
    | .finite negative mantissa exponent =>
      let (numerator, denominator) := FloatForm.fraction mantissa exponent
      signed negative (write generalStyle (roundedTo 6 numerator denominator))

example : display 0.1 = "0.1" ∧ display 1e16 = "1e+16" ∧ display (-0.0) = "-0.0" := by
  decide +kernel
example : fixed 1 0.25 = "0.2" ∧ general 1234567.0 = "1.23457e+06" := by decide +kernel

end GraphQuery.Decimal
