import GraphQuery.Decimal.Reading
import GraphQuery.Proofs.Decimal.Numeral

/-! # The text of numbers

Integers and finite floats are written as numerals, with a minus sign in front of a negative one. A
numeral says which number it is: without a fraction part and an exponent it is an integer, and else
the float that is nearest to its value.
-/

namespace GraphQuery

namespace FloatForm

/-- Turns a float without a sign into one with a sign. -/
def withSign (negative : Bool) : FloatForm → FloatForm
  | nan => nan
  | infinite _ => infinite negative
  | finite _ mantissa exponent => finite negative mantissa exponent

end FloatForm

namespace Numeral

open Decimal

/-- The float that is nearest to a numeral with a sign. -/
def toFloat (negative : Bool) (n : Numeral) : Float :=
  ((FloatForm.nearest n.value).withSign negative).toFloat

/-- The integer that a numeral with a sign denotes. -/
def toInt (negative : Bool) (n : Numeral) : Int :=
  Decimal.withSign negative (ofDigits n.whole)

/-- An integer is written as a numeral with its sign. -/
theorem chars_toString (i : Int) :
    (toString i).toList = signed (decide (i < 0)) (ofNat i.natAbs).chars := by
  rw [chars_ofNat, Int.toString_eq_repr]
  cases i with
  | ofNat n => simp [Int.repr, signed]
  | negSucc n => simp [Int.repr, signed]

theorem toInt_ofNat (i : Int) : (ofNat i.natAbs).toInt (decide (i < 0)) = i := by
  simp only [toInt, ofNat, ofDigits_toDigits, Decimal.withSign, decide_eq_true_eq]
  split <;> omega

/-- A finite float is written as a numeral with its sign, and with either sign the numeral denotes
the float with that sign. -/
theorem exists_numeral_float {x : Float} {negative : Bool} {mantissa : Nat} {exponent : Int}
    (read : FloatForm.ofFloat x = .finite negative mantissa exponent) (nan infinity : List Char) :
    ∃ n : Numeral, n.WellFormed ∧ n.isWhole = false ∧
      floatChars nan infinity x = signed negative n.chars ∧
      ∀ sign, n.toFloat sign = (FloatForm.finite sign mantissa exponent).toFloat := by
  have canonical := FloatForm.isCanonical_of_ofFloat read
  simp only [floatChars, read]
  by_cases zero : mantissa = 0
  · obtain ⟨n, formed, notWhole, written, value⟩ := exists_numeral_write ⟨0, 0⟩
    refine ⟨n, formed, notWhole, ?_, ?_⟩
    · rw [if_pos zero, written]
    · have least : exponent = FloatForm.leastExponent := by
        rcases canonical.least_le.eq_or_lt with same | greater
        · exact same.symm
        · exact absurd (canonical.normal greater) (by rw [zero]; decide)
      have none : n.value = 0 := by rw [value, toRat, Nat.cast_zero, zero_mul]
      intro sign
      rw [toFloat, none, FloatForm.nearest, if_pos rfl, FloatForm.withSign, ← least, ← zero]
  · obtain ⟨n, formed, notWhole, written, value⟩ := exists_numeral_write (shortest mantissa exponent)
    refine ⟨n, formed, notWhole, ?_, ?_⟩
    · rw [if_neg zero, written]
    · have positive := Nat.pos_of_ne_zero zero
      intro sign
      rw [toFloat, value, FloatForm.nearest_eq canonical positive (roundsTo_shortest canonical positive),
        FloatForm.withSign]

end Numeral

end GraphQuery
