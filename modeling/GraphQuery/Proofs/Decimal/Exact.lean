import GraphQuery.Proofs.Decimal.Quotient

/-! # Numbers that floats hold exactly

A multiple of a power of two that has at most 53 bits is rounded to itself, so that a bound of this
form is kept by rounding. Any other number is moved by at most half of its unit.
-/

namespace GraphQuery.FloatForm

/-! ## Multiples of powers of two -/

section Held

variable {k : ℕ} {e : Int} (small : k < 2 * leastNormal) (least : leastExponent ≤ e)

include small least

/-- A number with few enough bits is rounded to itself. -/
theorem roundedValue_mul_zpow : roundedValue (k * 2 ^ e) = k * 2 ^ e := by
  rcases Nat.eq_zero_or_pos k with rfl | positive
  · rw [Nat.cast_zero, zero_mul, roundedValue_zero]
  have low : unitExponent (k * 2 ^ e) ≤ e := by
    have bits : (k : ℚ) < 2 ^ (53 : ℤ) := by exact_mod_cast small
    have below : (k * 2 ^ e : ℚ) < ((2 : ℕ) : ℚ) ^ (53 + e) := by
      rw [Nat.cast_ofNat, zpow_add₀ (by norm_num)]
      gcongr
    rw [Int.lt_zpow_iff_log_lt (by norm_num) (by positivity)] at below
    unfold unitExponent
    omega
  obtain ⟨n, raised⟩ : ∃ n : ℕ, e = unitExponent (k * 2 ^ e) + n :=
    ⟨(e - unitExponent (k * 2 ^ e)).toNat, by omega⟩
  have whole : (k * 2 ^ e : ℚ) / 2 ^ unitExponent (k * 2 ^ e) = (k * 2 ^ n : ℕ) := by
    generalize unitExponent (k * 2 ^ e) = unit at raised
    rw [raised, zpow_add₀ (by norm_num), zpow_natCast]
    push_cast
    field_simp
  have unit : (2 : ℚ) ^ unitExponent (k * 2 ^ e) ≠ 0 := zpow_ne_zero _ (by norm_num)
  unfold roundedValue
  rw [whole, roundEven_natCast, ← whole, div_mul_cancel₀ _ unit]

/-- What is at least such a number is so after rounding. -/
theorem le_roundedValue {v : ℚ} (le : k * 2 ^ e ≤ v) : k * 2 ^ e ≤ roundedValue v := by
  rw [← roundedValue_mul_zpow small least]
  exact roundedValue_mono (by positivity) le

end Held

/-- Integers below `2 ^ 53` are rounded to themselves. -/
theorem roundedValue_natCast {n : ℕ} (small : n < 2 * leastNormal) : roundedValue n = n := by
  have held := roundedValue_mul_zpow small (e := 0) (by decide)
  rwa [zpow_zero, mul_one] at held

theorem roundedValue_le_natCast {n : ℕ} (small : n < 2 * leastNormal) {v : ℚ} (nonnegative : 0 ≤ v)
    (le : v ≤ n) : roundedValue v ≤ n := by
  rw [← roundedValue_natCast small]
  exact roundedValue_mono nonnegative le

theorem roundedValue_le_one {v : ℚ} (nonnegative : 0 ≤ v) (le : v ≤ 1) : roundedValue v ≤ 1 := by
  rw [← Nat.cast_one] at le ⊢
  exact roundedValue_le_natCast (by decide) nonnegative le

theorem roundedValue_nonneg {v : ℚ} (nonnegative : 0 ≤ v) : 0 ≤ roundedValue v := by
  rw [← roundedValue_zero]
  exact roundedValue_mono le_rfl nonnegative

/-- Integers below `2 ^ 53` are within the range of floats. -/
theorem natCast_lt_reach {n : ℕ} (small : n < 2 * leastNormal) : (n : ℚ) < reach :=
  (Nat.cast_lt.mpr small).trans_le (by decide +kernel)

/-- The least number beyond floats is rounded to itself. -/
theorem roundedValue_reach : roundedValue reach = reach :=
  roundedValue_mul_zpow (by decide) (by decide)

/-- What was rounded once is not changed by rounding. -/
theorem roundedValue_roundedValue {v : ℚ} (nonnegative : 0 ≤ v) :
    roundedValue (roundedValue v) = roundedValue v := by
  rcases nonnegative.eq_or_lt with rfl | positive
  · rw [roundedValue_zero, roundedValue_zero]
  have least : leastExponent ≤ unitExponent v := le_max_left _ _
  unfold roundedValue
  rcases (roundEven_unit_le positive).lt_or_eq with fits | full
  · exact roundedValue_mul_zpow fits least
  · have carried : (roundEven (v / 2 ^ unitExponent v) : ℚ) * 2 ^ unitExponent v =
        leastNormal * 2 ^ (unitExponent v + 1) := by
      rw [full, zpow_add_one₀ (by norm_num)]
      push_cast
      ring
    rw [carried]
    exact roundedValue_mul_zpow (by decide) (by omega)

/-! ## How far a number is moved -/

private theorem abs_roundEven_sub_le {q : ℚ} (nonnegative : 0 ≤ q) : |(roundEven q : ℚ) - q| ≤ 1 / 2 := by
  have low := Nat.floor_le nonnegative
  have high := Nat.lt_floor_add_one q
  rw [abs_le]
  unfold roundEven
  simp only
  split
  · constructor <;> linarith
  · split
    · push_cast
      constructor <;> linarith
    · split
      · constructor <;> linarith
      · push_cast
        constructor <;> linarith

/-- A number is moved by at most half of a unit that is not below its own. -/
theorem abs_roundedValue_sub_le {v : ℚ} (positive : 0 < v) {e : Int} (least : leastExponent ≤ e)
    (below : v < 2 ^ (e + 53)) : |roundedValue v - v| ≤ 2 ^ e / 2 := by
  have unit : (0 : ℚ) < 2 ^ unitExponent v := zpow_pos (by norm_num) _
  have low : unitExponent v ≤ e := by
    have bound : v < ((2 : ℕ) : ℚ) ^ (e + 53) := below
    rw [Int.lt_zpow_iff_log_lt (by norm_num) positive] at bound
    unfold unitExponent
    omega
  have moved := abs_roundEven_sub_le (div_nonneg positive.le unit.le)
  calc |roundedValue v - v|
      = |roundEven (v / 2 ^ unitExponent v) - v / 2 ^ unitExponent v| * 2 ^ unitExponent v := by
        unfold roundedValue
        rw [← abs_of_pos unit, ← abs_mul, sub_mul, abs_of_pos unit, div_mul_cancel₀ _ unit.ne']
    _ ≤ 1 / 2 * 2 ^ unitExponent v := by gcongr
    _ ≤ 1 / 2 * 2 ^ e := by
        gcongr
        norm_num
    _ = 2 ^ e / 2 := by ring

/-! ## Fractions of integers

A proper fraction is rounded and then multiplied by an integer, and the product is rounded again. As
long as the integers have few enough bits, the result is on the same side of every integer as the
exact product, unless that is an integer itself.
-/

section Fraction

variable {a b m k j : ℕ} (proper : a ≤ b) (coarse : 2 * b ≤ 2 ^ j) (fine : m * 2 ^ j ≤ 2 * leastNormal)

private theorem abs_roundedValue_fraction (some : 0 < a) (proper : a ≤ b) :
    |roundedValue (a / b) - a / b| ≤ 2 ^ (-52 : ℤ) / 2 := by
  have positive : (0 : ℚ) < b := Nat.cast_pos.mpr (some.trans_le proper)
  have one : (a / b : ℚ) ≤ 1 := (div_le_one positive).mpr (Nat.cast_le.mpr proper)
  exact abs_roundedValue_sub_le (div_pos (Nat.cast_pos.mpr some) positive) (by decide)
    (one.trans_lt (by norm_num))

include coarse fine

private theorem lost_le (some : 0 < b) : (2 ^ (-52 : ℤ) / 2 * m : ℚ) ≤ 1 / b / 2 := by
  have positive : (0 : ℚ) < b := Nat.cast_pos.mpr some
  have bits : m * b * 2 ≤ 2 ^ 53 := by
    calc m * b * 2 = m * (2 * b) := by ring
      _ ≤ m * 2 ^ j := Nat.mul_le_mul_left m coarse
      _ ≤ 2 ^ 53 := fine
  have cast : (m * b * 2 : ℚ) ≤ 2 ^ 53 := by exact_mod_cast bits
  rw [div_div, le_div_iff₀ (by positivity)]
  norm_num
  linarith

omit coarse in
private theorem succ_le_roundedValue (half : 0 < j) (inner : k < m) {v : ℚ}
    (le : k + 2 ^ (-j : ℤ) ≤ v) : k + 2 ^ (-j : ℤ) ≤ roundedValue v := by
  have next : (k + 2 ^ (-j : ℤ) : ℚ) = (k * 2 ^ j + 1 : ℕ) * 2 ^ (-j : ℤ) := by
    push_cast
    rw [zpow_neg, zpow_natCast, add_mul, mul_assoc, mul_inv_cancel₀ (by positivity), mul_one, one_mul]
  have bits : k * 2 ^ j + 1 < 2 * leastNormal := by
    calc k * 2 ^ j + 1 < k * 2 ^ j + 2 ^ j := Nat.add_lt_add_left (Nat.one_lt_two_pow half.ne') _
      _ = (k + 1) * 2 ^ j := by rw [add_mul, one_mul]
      _ ≤ m * 2 ^ j := Nat.mul_le_mul_right _ inner
      _ ≤ 2 * leastNormal := fine
  have least : leastExponent ≤ (-j : ℤ) := by
    have few : 2 ^ j ≤ 2 ^ 53 := (Nat.le_mul_of_pos_left _ (by omega)).trans fine
    have exponent := (Nat.pow_le_pow_iff_right (by norm_num)).mp few
    unfold leastExponent
    omega
  rw [next] at le ⊢
  exact le_roundedValue bits least le

include proper

private theorem succ_le_product (above : k * b < a * m) (some : 0 < a) :
    k + 2 ^ (-j : ℤ) ≤ roundedValue (a / b) * m := by
  have positive : (0 : ℚ) < b := Nat.cast_pos.mpr (some.trans_le proper)
  have unit : (2 : ℚ) ^ (-j : ℤ) ≤ 1 / b / 2 := by
    have cast : (2 * b : ℚ) ≤ 2 ^ j := by exact_mod_cast coarse
    rw [zpow_neg, zpow_natCast, div_div, ← one_div]
    exact one_div_le_one_div_of_le (by positivity) (by linarith)
  have exact : (k + 1 / b : ℚ) ≤ a / b * m := by
    have whole : (k * b + 1 : ℚ) ≤ a * m := by exact_mod_cast above
    rw [div_mul_eq_mul_div, le_div_iff₀ positive, add_mul, one_div_mul_cancel positive.ne']
    exact whole
  have lost := lost_le coarse fine (some.trans_le proper)
  have moved := (abs_le.mp (abs_roundedValue_fraction some proper)).1
  have scaled : (a / b - 2 ^ (-52 : ℤ) / 2) * m ≤ roundedValue (a / b) * m := by
    gcongr
    linarith
  linarith

/-- Above an integer, the result stays above it. -/
theorem lt_roundedValue_mul (above : k * b < a * m) : k < roundedValue (roundedValue (a / b) * m) := by
  have some : 0 < a := Nat.pos_of_ne_zero fun zero => by
    rw [zero, zero_mul] at above
    omega
  have inner : k < m := by
    have scaled : a * m ≤ m * b := (Nat.mul_le_mul_right m proper).trans_eq (mul_comm b m)
    exact Nat.lt_of_mul_lt_mul_right (above.trans_le scaled)
  have half : 0 < j := Nat.pos_of_ne_zero fun zero => by
    rw [zero] at coarse
    omega
  calc (k : ℚ) < k + 2 ^ (-j : ℤ) := lt_add_of_pos_right _ (zpow_pos (by norm_num) _)
    _ ≤ roundedValue (roundedValue (a / b) * m) :=
      succ_le_roundedValue fine half inner (succ_le_product proper coarse fine above some)

/-- Below an integer, the result does not exceed it. -/
theorem roundedValue_mul_le (below : a * m < k * b) (small : k < 2 * leastNormal) :
    roundedValue (roundedValue (a / b) * m) ≤ k := by
  have positive : 0 < b := Nat.pos_of_ne_zero fun zero => by
    rw [zero, mul_zero] at below
    omega
  have above : (0 : ℚ) < b := Nat.cast_pos.mpr positive
  have nonnegative : 0 ≤ roundedValue (a / b) * m :=
    mul_nonneg (roundedValue_nonneg (by positivity)) m.cast_nonneg
  apply roundedValue_le_natCast small nonnegative
  rcases Nat.eq_zero_or_pos a with rfl | some
  · rw [Nat.cast_zero, zero_div, roundedValue_zero, zero_mul]
    exact k.cast_nonneg
  have exact : (a / b * m : ℚ) ≤ k - 1 / b := by
    have whole : (a * m + 1 : ℚ) ≤ k * b := by exact_mod_cast below
    rw [div_mul_eq_mul_div, div_le_iff₀ above, sub_mul, one_div_mul_cancel above.ne']
    linarith
  have lost := lost_le coarse fine positive
  have moved := (abs_le.mp (abs_roundedValue_fraction some proper)).2
  have scaled : roundedValue (a / b) * m ≤ (a / b + 2 ^ (-52 : ℤ) / 2) * m := by
    gcongr
    linarith
  have part : (0 : ℚ) < 1 / b := by positivity
  linarith

end Fraction

end GraphQuery.FloatForm
