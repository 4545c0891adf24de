import GraphQuery.Proofs.Decimal.Arithmetic

/-! # Quotients of floats

A quotient is computed as a quotient of integers with a remainder, after the numerator was shifted so
far that the quotient has more bits than a float keeps. The remainder says how the quotient compares
with the exact one, so that the outcome is the exact quotient, rounded to the nearest float.
-/

namespace GraphQuery.FloatForm

open Float.Model (Format UnpackedFloat totalExponent)
open Float.Model.UnpackedFloat

theorem div_eq_packed (x y : Float) :
    x / y = packed (div Format.binary64 (ofFloat x).unpacked (ofFloat y).unpacked) := by
  rw [← unpack_eq, ← unpack_eq]
  rfl

theorem div_sign (n k : Bool) : sign n / sign k = sign (n != k) := by
  cases n <;> cases k <;> rfl

/-- The remainder of a division says how the quotient compares with the exact one. -/
theorem represents_quotient (a : Nat) {b : Nat} (positive : 0 < b) :
    Represents (.ofMantissaAndAccuracy (a / b) (accuracyOfFraction (a % b) b)) (a / b : ℚ) := by
  have below : (0 : ℚ) < b := Nat.cast_pos.mpr positive
  have parts : (a / b : ℚ) = (a / b : ℕ) + (a % b : ℕ) / b := by
    rw [eq_comm, ← mul_left_inj' below.ne', add_mul, div_mul_cancel₀ _ below.ne',
      div_mul_cancel₀ _ below.ne', mul_comm]
    exact_mod_cast Nat.div_add_mod a b
  have rest : a % b < b := Nat.mod_lt a positive
  rw [parts]
  generalize a / b = quotient
  generalize a % b = remainder at *
  unfold accuracyOfFraction
  split
  · rename_i zero
    rw [zero, Nat.cast_zero, zero_div, add_zero]
    exact represents_exact quotient
  · rename_i some
    have least : (0 : ℚ) < remainder := Nat.cast_pos.mpr (Nat.pos_of_ne_zero some)
    have most : (remainder : ℚ) < b := Nat.cast_lt.mpr rest
    have some' : (0 : ℚ) < remainder / b := div_pos least below
    have short : (remainder : ℚ) / b < 1 := (div_lt_one below).mpr most
    rcases lt_trichotomy (2 * remainder) b with less | half | more
    · have cast : (2 * remainder : ℚ) < b := by exact_mod_cast less
      have small : (remainder : ℚ) / b < 1 / 2 := by
        rw [div_lt_div_iff₀ below two_pos]
        linarith
      rw [compare_lt_iff_lt.mpr less]
      constructor
      · exact lt_add_of_pos_right _ some'
      · exact (add_lt_add_iff_left _).mpr small
    · have cast : (2 * remainder : ℚ) = b := by exact_mod_cast half
      have middle : (remainder : ℚ) / b = 1 / 2 := by
        rw [div_eq_div_iff below.ne' two_ne_zero]
        linarith
      rw [compare_eq_iff_eq.mpr half, middle]
      rfl
    · have cast : (b : ℚ) < 2 * remainder := by exact_mod_cast more
      have large : (1 / 2 : ℚ) < remainder / b := by
        rw [div_lt_div_iff₀ two_pos below]
        linarith
      rw [compare_gt_iff_gt.mpr more]
      constructor
      · exact (add_lt_add_iff_left _).mpr large
      · exact (add_lt_add_iff_left _).mpr short

/-- The quotient of two mantissas is at least half of the power of two between them. -/
theorem pow_le_quotient {m l : Nat} (mPos : 0 < m) (lPos : 0 < l) (d e : Int) :
    (2 : ℚ) ^ (totalExponent m d - totalExponent l e - 1) ≤ (m * 2 ^ d) / (l * 2 ^ e) := by
  have unit (k : Int) : (0 : ℚ) < 2 ^ k := zpow_pos (by norm_num) _
  have lower : (2 : ℚ) ^ (m.log2 : Int) ≤ m := by
    rw [zpow_natCast]
    exact_mod_cast Nat.log2_self_le mPos.ne'
  have upper : (l : ℚ) ≤ 2 ^ (l.log2 + 1 : Int) := by
    have below : l < 2 ^ (l.log2 + 1) := Nat.lt_log2_self
    rw [← Nat.cast_one, ← Nat.cast_add, zpow_natCast]
    exact_mod_cast below.le
  have exponents : totalExponent m d - totalExponent l e - 1 =
      (m.log2 + d : Int) - (l.log2 + 1 + e) := by
    unfold totalExponent
    omega
  rw [exponents, zpow_sub₀ (by norm_num), zpow_add₀ (by norm_num), zpow_add₀ (by norm_num)]
  have lCast : (0 : ℚ) < l := Nat.cast_pos.mpr lPos
  gcongr

private def quotientExponent (m l : Nat) (d e : Int) : Int :=
  min (d - e) (Format.binary64.targetExponent (totalExponent m d - totalExponent l e))

private theorem quotientExponent_le {m l : Nat} (mPos : 0 < m) (lPos : 0 < l) (d e : Int) :
    quotientExponent m l d e ≤ unitExponent ((m * 2 ^ d) / (l * 2 ^ e)) := by
  have large : ((2 : ℕ) : ℚ) ^ (totalExponent m d - totalExponent l e - 1) ≤
      (m * 2 ^ d) / (l * 2 ^ e) := pow_le_quotient mPos lPos d e
  rw [Int.zpow_le_iff_le_log (by norm_num) (by positivity)] at large
  have least : Format.binary64.minExponent = leastExponent := rfl
  have bits : (Format.binary64.mantissaBits : Int) = 53 := rfl
  unfold quotientExponent Format.targetExponent unitExponent
  rw [least, bits]
  omega

private theorem shifted_div {m l : Nat} {d e exponent : Int} (le : exponent ≤ d - e) :
    ((m <<< (d - e - exponent).toNat : ℕ) / l : ℚ) * 2 ^ exponent = (m * 2 ^ d) / (l * 2 ^ e) := by
  have shift : ((d - e - exponent).toNat : Int) = d - e - exponent := by omega
  rw [Nat.shiftLeft_eq, Nat.cast_mul, Nat.cast_pow, Nat.cast_ofNat, ← zpow_natCast, shift,
    zpow_sub₀ (by norm_num), zpow_sub₀ (by norm_num)]
  field_simp

/-- The quotient of two finite floats is rounded to the nearest float. -/
theorem ofFloat_div {x y : Float} {n k : Bool} {m l : Nat} {d e : Int}
    (first : ofFloat x = finite n m d) (second : ofFloat y = finite k l e) (lPos : 0 < l) :
    ofFloat (x / y) = (nearest |value n m d / value k l e|).signed (n != k) := by
  rw [div_eq_packed, first, second, unpacked_finite _ _ lPos]
  rcases Nat.eq_zero_or_pos m with rfl | mPos
  · rw [value_zero, zero_div, abs_zero, nearest_zero, unpacked_zero, div, div_sign,
      ofFloat_packed_zero]
    rfl
  rw [unpacked_finite _ _ mPos, div, div_sign, abs_div, abs_value, abs_value]
  have lCast : (0 : ℚ) < l := Nat.cast_pos.mpr lPos
  have low := quotientExponent_le mPos lPos d e
  have exact := shifted_div (m := m) (l := l) (min_le_left _ _ : quotientExponent m l d e ≤ d - e)
  unfold divCore
  change ofFloat (packed (roundWithAccuracy _ _ _ (quotientExponent m l d e) _)) = _
  have quotient := represents_quotient (m <<< (d - e - quotientExponent m l d e).toNat) lPos
  have positive : (0 : ℚ) < (m <<< (d - e - quotientExponent m l d e).toNat : ℕ) / l := by
    rw [Nat.shiftLeft_eq]
    positivity
  rw [← exact] at low ⊢
  exact ofFloat_packed_roundWithAccuracy _ positive quotient low

/-- Quotients of numbers that are not negative have the places of the exact ones, rounded. -/
theorem place?_div {x y : Float} {p q : ℚ} (first : (ofFloat x).place? = some (.of p))
    (second : (ofFloat y).place? = some (.of q)) (left : 0 ≤ p) (right : 0 < q) :
    (ofFloat (x / y)).place? = some (reached (roundedValue (p / q))) := by
  obtain ⟨n, m, d, read, rfl⟩ := finite_of_place? first
  obtain ⟨k, l, e, read', rfl⟩ := finite_of_place? second
  have lPos : 0 < l := by
    rcases Nat.eq_zero_or_pos l with rfl | positive
    · rw [value_zero] at right
      exact absurd right (lt_irrefl 0)
    · exact positive
  rw [ofFloat_div read read' lPos, abs_of_nonneg (div_nonneg left right.le)]
  refine place?_nearest_signed (div_nonneg left right.le) fun above => ?_
  rw [eq_false_of_value_pos right, eq_false_of_value_pos ((div_pos_iff_of_pos_right right).mp above)]
  rfl

end GraphQuery.FloatForm
