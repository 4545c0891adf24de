import GraphQuery.Proofs.Decimal.Exact
import GraphQuery.Proofs.Decimal.Shortest

/-! # Integers as floats

Integers become the floats that are nearest to them, and hundredths of integers and of floats are
rounded once. A float becomes the least integer that is not below it.
-/

namespace GraphQuery

namespace FloatForm

open Float.Model (Format UnpackedFloat totalExponent)
open Float.Model.UnpackedFloat

/-! ## Integers -/

/-- Integers with at most 53 bits are floats. -/
theorem place?_toFloat {n : ℕ} (small : n < 2 * leastNormal) :
    (ofFloat n.toUInt64.toFloat).place? = some (.of n) := by
  have width : n.toUInt64.toNat = n := by
    have bound : n < 2 ^ 53 := small
    exact Nat.mod_eq_of_lt (by omega)
  have parts : n.toUInt64.toFloat = packed (normalize Format.binary64 n 0 .positive) := by
    change packed (normalize Format.binary64 n.toUInt64.toNat 0 .positive) = _
    rw [width]
  rw [parts]
  rcases Nat.eq_zero_or_pos n with rfl | positive
  · refine (congrArg place? (ofFloat_packed_zero false)).trans ?_
    rw [place?, value_zero, Nat.cast_zero]
  · rw [ofFloat_packed_normalize (by omega), decide_eq_false (by omega), signed_false_nearest,
      Int.natAbs_natCast, zpow_zero, mul_one, place?_nearest n.cast_nonneg,
      roundedValue_natCast small, reached, if_pos (natCast_lt_reach small)]

private theorem place?_one : (ofFloat Float.exactlyRepresentablePowersOfTen[0]).place? = some (.of 1) := by
  decide +kernel

private theorem ofModel_ofScientific {n : ℕ} (positive : 0 < n) :
    Float.ofModel (.ofScientific n 0) =
      packed (roundWithAccuracy Format.binary64 (sign false) (n <<< 53 * 1) (-53 + 0) .exact) := by
  have range : (0 : ℤ) ≤ 2 ^ Format.binary64.exponentBits := by positivity
  unfold Float.Model.ofScientific UnpackedFloat.ofScientific
  rw [dif_neg positive.ne', if_neg (by omega), if_neg (by omega), if_pos le_rfl, mul]
  rfl

private theorem ofFloat_ofScientific {n : ℕ} (positive : 0 < n) :
    ofFloat (.ofModel (.ofScientific n 0)) = nearest n := by
  have shifted : (0 : ℚ) < (n <<< 53 * 1 : ℕ) := by
    rw [Nat.shiftLeft_eq]
    positivity
  have exact : ((n <<< 53 * 1 : ℕ) : ℚ) * 2 ^ (-53 + 0 : ℤ) = n := by
    rw [Nat.shiftLeft_eq, mul_one, Nat.cast_mul, Nat.cast_pow, Nat.cast_ofNat, ← zpow_natCast, mul_assoc,
      ← zpow_add₀ (by norm_num)]
    exact mul_one _
  have low : (-53 + 0 : ℤ) ≤ unitExponent ((n <<< 53 * 1 : ℕ) * 2 ^ (-53 + 0 : ℤ)) := by
    have whole : (1 : ℚ) ≤ n := by exact_mod_cast positive
    rw [exact]
    unfold unitExponent
    rw [Int.log_of_one_le_right 2 whole]
    omega
  rw [ofModel_ofScientific positive,
    ofFloat_packed_roundWithAccuracy false shifted (represents_exact _) low, exact, signed_false_nearest]

/-- Integers become the floats that are nearest to them. -/
theorem place?_ofScientific (n : ℕ) :
    (ofFloat (Float.ofScientific n false 0)).place? = some (reached (roundedValue n)) := by
  unfold Float.ofScientific
  split
  · rename_i small
    have product := place?_mul (place?_toFloat small.1) place?_one n.cast_nonneg zero_le_one
    rw [mul_one] at product
    exact product
  · rename_i large
    exact (congrArg place? (ofFloat_ofScientific (by omega))).trans (place?_nearest n.cast_nonneg)

private theorem reach_le_roundedValue {n : ℕ} (long : 400 < Decimal.digitCount n) (positive : 0 < n) :
    reach ≤ roundedValue n := by
  have digits : (8 : ℚ) ^ (Decimal.digitCount n - 1) ≤ n := by
    calc (8 : ℚ) ^ (Decimal.digitCount n - 1) ≤ 10 ^ (Decimal.digitCount n - 1) := by gcongr; norm_num
      _ ≤ n := by exact_mod_cast Decimal.pow_digitCount_le positive
  have above : reach ≤ (n : ℚ) := by
    calc reach = 2 ^ (52 : ℤ) * 2 ^ (972 : ℤ) := rfl
      _ = 2 ^ 1024 := by
        rw [← zpow_add₀ (by norm_num)]
        rfl
      _ ≤ 2 ^ (3 * (Decimal.digitCount n - 1)) := by
        gcongr
        · norm_num
        · omega
      _ = 8 ^ (Decimal.digitCount n - 1) := by
        rw [pow_mul]
        norm_num
      _ ≤ n := digits
  rw [← roundedValue_reach]
  exact roundedValue_mono reach_pos.le above

/-- The float of a decimal without a fraction is the nearest one, also where it is not computed. -/
theorem place?_whole (n : ℕ) :
    (ofFloat (Decimal.toFloat ⟨n, 0⟩)).place? = some (reached (roundedValue n)) := by
  rcases Nat.eq_zero_or_pos n with rfl | positive
  · rw [Nat.cast_zero, roundedValue_zero, reached, if_pos reach_pos]
    decide +kernel
  unfold Decimal.toFloat
  simp only [add_zero]
  rw [if_neg (by simp [positive.ne'])]
  split
  · rename_i long
    rw [reached, if_neg (reach_le_roundedValue (by omega) positive).not_gt]
    decide +kernel
  · exact place?_ofScientific n

/-- Hundredths of integers are rounded once. -/
theorem place?_hundredth {n : ℕ} (small : n < 2 * leastNormal) :
    (ofFloat (Decimal.toFloat ⟨n, -2⟩)).place? = some (reached (roundedValue (n / 100))) := by
  rcases Nat.eq_zero_or_pos n with rfl | positive
  · rw [Nat.cast_zero, zero_div, roundedValue_zero, reached, if_pos reach_pos]
    decide +kernel
  have short : Decimal.digitCount n - 1 < 16 := by
    apply (Nat.pow_lt_pow_iff_right (a := 10) (by norm_num)).mp
    exact (Decimal.pow_digitCount_le positive).trans_lt (small.trans (by decide))
  unfold Decimal.toFloat
  rw [if_neg (by simp [positive.ne']), if_neg (by simp; omega), if_pos (by simp)]
  unfold Float.ofScientific
  rw [dif_pos ⟨small, by simp⟩]
  have hundred : (ofFloat Float.exactlyRepresentablePowersOfTen[2]).place? = some (.of 100) := by
    decide +kernel
  exact place?_div (place?_toFloat small) hundred n.cast_nonneg (by norm_num)

theorem place?_hundred : (ofFloat (Decimal.toFloat ⟨1, 2⟩)).place? = some (.of 100) := by
  decide +kernel

/-! ## Infinities -/

/-- What is infinite has one of the two outermost places. -/
theorem isInf_eq (x : Float) : x.isInf = (ofFloat x).unpacked.isInf := by
  rw [← unpack_eq]
  rfl

theorem isInf_of_place?_top {x : Float} (at? : (ofFloat x).place? = some ⊤) : x.isInf = true := by
  rw [isInf_eq, infinite_of_place?_top at?]
  rfl

theorem isInf_of_place?_of {x : Float} {q : ℚ} (at? : (ofFloat x).place? = some (.of q)) :
    x.isInf = false := by
  obtain ⟨n, m, e, read, -⟩ := finite_of_place? at?
  rw [isInf_eq, read]
  obtain ⟨positive, parts⟩ | parts := unpacked_finite_cases n m e <;> rw [parts] <;> rfl

/-! ## Rounding up -/

/-- A float that is rounded up becomes the least integer that is not below it. -/
theorem roundUp_eq_ceil (n : Bool) (m : ℕ) (e : Int) : roundUp n m e = ⌈value n m e⌉ := by
  have parts := Decimal.fraction_div m e
  have below : 0 < (fraction m e).2 := by
    simp only [fraction, Nat.pow_eq]
    positivity
  unfold roundUp
  generalize fraction m e = parted at *
  obtain ⟨a, b⟩ := parted
  have denominator : (0 : ℚ) < b := Nat.cast_pos.mpr below
  cases n
  · rw [value_false, ← parts]
    simp only [Bool.false_eq_true, if_false]
    rw [eq_comm, Int.ceil_eq_iff, lt_div_iff₀ denominator, div_le_iff₀ denominator]
    have atMost : (a + b - 1) / b * b ≤ a + b - 1 := Nat.div_mul_le_self _ _
    have atLeast : a + b - 1 < (a + b - 1) / b * b + b := Nat.lt_div_mul_add below
    have low : (a + b - 1) / b * b < a + b := by omega
    have high : a ≤ (a + b - 1) / b * b := by omega
    generalize (a + b - 1) / b = quotient at low high
    have less : (quotient * b : ℚ) < a + b := by exact_mod_cast low
    rw [Int.cast_natCast, sub_mul, one_mul]
    constructor
    · linarith
    · exact_mod_cast high
  · rw [value_true, ← parts, Int.ceil_neg]
    simp only [if_true]
    rw [← Int.natCast_floor_eq_floor (by positivity), Nat.floor_div_eq_div]

end FloatForm

/-! ## Numbers -/

namespace Number

open FloatForm

/-- An integer within the range of floats becomes the nearest float. -/
theorem exists_toFloat?_natCast {n : ℕ} (within : roundedValue n < reach) :
    ∃ x, (Number.int n).toFloat? = some x ∧ (ofFloat x).place? = some (.of (roundedValue n)) := by
  have at? := place?_whole n
  rw [reached, if_pos within] at at?
  refine ⟨Decimal.toFloat ⟨n, 0⟩, ?_, at?⟩
  simp only [toFloat?, Int.natAbs_natCast, isInf_of_place?_of at?]
  rw [if_neg Bool.false_ne_true, if_neg (by omega)]

/-- An integer beyond the range of floats becomes none. -/
theorem toFloat?_natCast_eq_none {n : ℕ} (beyond : ¬roundedValue n < reach) :
    (Number.int n).toFloat? = none := by
  have at? := place?_whole n
  rw [reached, if_neg beyond] at at?
  simp only [toFloat?, Int.natAbs_natCast, isInf_of_place?_top at?, if_true]

/-- Hundredths of percentages are rounded once. -/
theorem exists_hundredth {share : Number} {p : ℚ} (at? : share.place? = some (.of p)) (positive : 0 < p)
    (most : p ≤ 100) :
    ∃ x, share.overPowerOfTen? 2 = some x ∧
      (ofFloat x).place? = some (.of (roundedValue (p / 100))) := by
  have within : roundedValue (p / 100) < reach :=
    (roundedValue_le_one (by positivity) (by linarith)).trans_lt (by decide +kernel)
  cases share with
  | int i =>
    obtain rfl : (i : ℚ) = p := Place.of_inj.mp (Option.some.inj at?)
    obtain ⟨n, rfl⟩ := Int.eq_ofNat_of_zero_le (a := i) (by exact_mod_cast positive.le)
    rw [Int.cast_natCast] at *
    have fits : n ≤ 100 := by exact_mod_cast most
    have hundredth := place?_hundredth (n := n) (fits.trans_lt (by decide))
    rw [reached, if_pos within] at hundredth
    refine ⟨Decimal.toFloat ⟨n, -2⟩, ?_, hundredth⟩
    simp only [overPowerOfTen?, Int.natAbs_natCast, Nat.cast_ofNat, isInf_of_place?_of hundredth]
    rw [if_neg Bool.false_ne_true, if_neg (by omega)]
  | float x =>
    have quotient := place?_div at? place?_hundred positive.le (by norm_num)
    rw [reached, if_pos within] at quotient
    exact ⟨_, rfl, quotient⟩

end Number

end GraphQuery
