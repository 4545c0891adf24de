import GraphQuery.Proofs.Decimal.Unpacked

/-! # Rounding in arithmetic

Arithmetic computes a mantissa with two residual bits, which say how the mantissa compares with the
exact result, and shifts it to the unit of the result before it rounds. `Represents` is what every
shift keeps, so that the outcome is the float that is nearest to the exact result.
-/

namespace GraphQuery.FloatForm

open Float.Model (Format UnpackedFloat totalExponent)
open Float.Model.UnpackedFloat

/-! ## Residual bits -/

/-- What a mantissa with two residual bits says about the number that it was cut from. -/
def Represents (em : ExtendedMantissa) (q : ℚ) : Prop :=
  match em.roundBit, em.stickyBit with
  | false, false => q = em.mantissa
  | false, true => em.mantissa < q ∧ q < em.mantissa + 1 / 2
  | true, false => q = em.mantissa + 1 / 2
  | true, true => em.mantissa + 1 / 2 < q ∧ q < em.mantissa + 1

theorem represents_exact (n : ℕ) : Represents (.ofMantissaAndAccuracy n .exact) n :=
  rfl

namespace Represents

variable {em : ExtendedMantissa} {q : ℚ}

theorem bounds (represents : Represents em q) : (em.mantissa : ℚ) ≤ q ∧ q < em.mantissa + 1 := by
  obtain ⟨mantissa, round, sticky⟩ := em
  cases round <;> cases sticky <;> simp only [Represents] at represents <;> constructor <;> linarith

theorem floor_eq (represents : Represents em q) : ⌊q⌋₊ = em.mantissa := by
  have between := represents.bounds
  exact (Nat.floor_eq_iff (le_trans (Nat.cast_nonneg _) between.1)).mpr between

/-- The residual bits decide how the number is rounded. -/
theorem roundedMantissa_eq (represents : Represents em q) : em.roundedMantissa = roundEven q := by
  have floor := represents.floor_eq
  obtain ⟨mantissa, round, sticky⟩ := em
  unfold roundEven
  rw [floor]
  cases round <;> cases sticky <;> simp only [Represents] at represents <;>
    simp only [ExtendedMantissa.roundedMantissa, ExtendedMantissa.accuracy, Accuracy.roundToNearestEven]
  · rw [if_pos (by linarith)]
  · rw [if_pos (by linarith)]
  · rw [if_neg (by linarith), if_neg (by linarith)]
    split <;> omega
  · rw [if_neg (by linarith), if_pos (by linarith)]

theorem shiftRightOne (represents : Represents em q) : Represents em.shiftRightOne (q / 2) := by
  obtain ⟨mantissa, round, sticky⟩ := em
  have halves : (mantissa : ℚ) = 2 * (mantissa / 2 : ℕ) + (mantissa % 2 : ℕ) := by
    exact_mod_cast (Nat.div_add_mod mantissa 2).symm
  rcases Nat.mod_two_eq_zero_or_one mantissa with even | odd
  · have dropped : (mantissa % 2 != 0) = false := by rw [even]; rfl
    rw [even, Nat.cast_zero, add_zero] at halves
    cases round <;> cases sticky <;>
      simp only [Represents, ExtendedMantissa.shiftRightOne, dropped, Bool.or_false,
        Bool.or_true] at represents ⊢ <;>
      first | linarith | (constructor <;> linarith)
  · have dropped : (mantissa % 2 != 0) = true := by rw [odd]; rfl
    rw [odd, Nat.cast_one] at halves
    cases round <;> cases sticky <;>
      simp only [Represents, ExtendedMantissa.shiftRightOne, dropped, Bool.or_false,
        Bool.or_true] at represents ⊢ <;>
      first | linarith | (constructor <;> linarith)

theorem shiftRight (represents : Represents em q) (n : ℕ) : Represents (em >>> n) (q / 2 ^ n) := by
  change Represents (n.repeat ExtendedMantissa.shiftRightOne em) _
  induction n with
  | zero => simpa [Nat.repeat] using represents
  | succ n ih =>
    rw [Nat.repeat, pow_succ, ← div_div]
    exact ih.shiftRightOne

end Represents

/-! ## Units of mantissas -/

private theorem log_mul_zpow {v : ℚ} (positive : 0 < v) (exponent : Int) :
    Int.log 2 (v * 2 ^ exponent) = Int.log 2 v + exponent := by
  have unit : (0 : ℚ) < 2 ^ exponent := zpow_pos (by norm_num) _
  apply eq_of_forall_le_iff
  intro x
  rw [← sub_le_iff_le_add, ← Int.zpow_le_iff_le_log (by norm_num) (mul_pos positive unit),
    ← Int.zpow_le_iff_le_log (by norm_num) positive, Nat.cast_ofNat, zpow_sub₀ (by norm_num),
    div_le_iff₀ unit]

/-- The unit of a number is that of a mantissa it is cut to. -/
theorem unitExponent_eq_targetExponent {em : ExtendedMantissa} {q : ℚ} (represents : Represents em q)
    (positive : 0 < em.mantissa) (exponent : Int) :
    Format.binary64.targetExponent (totalExponent em.mantissa exponent) =
      unitExponent (q * 2 ^ exponent) := by
  have least : Format.binary64.minExponent = leastExponent := rfl
  have bits : (Format.binary64.mantissaBits : Int) = 53 := rfl
  have log : Int.log 2 (q * 2 ^ exponent) = em.mantissa.log2 + exponent := by
    have whole : (1 : ℚ) ≤ em.mantissa := by exact_mod_cast positive
    have between := represents.bounds
    rw [log_mul_zpow (by linarith), Int.log_of_one_le_right 2 (by linarith), represents.floor_eq,
      Nat.log2_eq_log_two]
  unfold unitExponent Format.targetExponent totalExponent
  rw [log, least, bits, max_comm]
  congr 1
  omega

private theorem targetExponent_eq_unitExponent {em : ExtendedMantissa} {q : ℚ}
    (represents : Represents em q) (positive : 0 < q) {exponent : Int}
    (low : exponent ≤ unitExponent (q * 2 ^ exponent)) :
    Format.binary64.targetExponent (totalExponent em.mantissa exponent) =
      unitExponent (q * 2 ^ exponent) := by
  rcases Nat.eq_zero_or_pos em.mantissa with zero | some
  · have least : Format.binary64.minExponent = leastExponent := rfl
    have bits : (Format.binary64.mantissaBits : Int) = 53 := rfl
    have below : Int.log 2 (q * 2 ^ exponent) < exponent := by
      have unit : (0 : ℚ) < 2 ^ exponent := zpow_pos (by norm_num) _
      have small := represents.bounds.2
      rw [zero, Nat.cast_zero, zero_add] at small
      rw [← Int.lt_zpow_iff_log_lt (by norm_num) (mul_pos positive unit), Nat.cast_ofNat]
      exact mul_lt_of_lt_one_left unit small
    -- the number is less than its unit, which is therefore the least one
    unfold unitExponent at low ⊢
    unfold Format.targetExponent totalExponent
    rw [zero, least, bits, show Nat.log2 0 = 0 from rfl]
    omega
  · exact unitExponent_eq_targetExponent represents some exponent

/-! ## Rounded values -/

def roundedValue (v : ℚ) : ℚ :=
  roundEven (v / 2 ^ unitExponent v) * 2 ^ unitExponent v

@[simp] theorem roundedValue_zero : roundedValue 0 = 0 := by
  rw [roundedValue, zero_div, ← Nat.cast_zero, roundEven_natCast, Nat.cast_zero, zero_mul]

private theorem roundedValue_mono_of_pos {v w : ℚ} (positive : 0 < v) (le : v ≤ w) :
    roundedValue v ≤ roundedValue w := by
  have more : 0 < w := positive.trans_le le
  rcases (unitExponent_mono positive le).eq_or_lt with same | less
  · unfold roundedValue
    rw [same]
    gcongr
    exact roundEven_mono (by gcongr)
  · have unit : (0 : ℚ) < 2 ^ unitExponent v := zpow_pos (by norm_num) _
    have least : leastExponent ≤ unitExponent v := le_max_left _ _
    calc roundedValue v ≤ (2 * leastNormal : ℕ) * 2 ^ unitExponent v := by
          unfold roundedValue
          gcongr
          exact roundEven_unit_le positive
      _ = leastNormal * 2 ^ (unitExponent v + 1) := by
          rw [zpow_add_one₀ (by norm_num)]
          push_cast
          ring
      _ ≤ leastNormal * 2 ^ unitExponent w := by
          gcongr
          · norm_num
          · omega
      _ ≤ roundedValue w := by
          unfold roundedValue
          gcongr
          exact le_roundEven_unit more (by omega)

/-- Rounding keeps the order of numbers. -/
theorem roundedValue_mono {v w : ℚ} (nonnegative : 0 ≤ v) (le : v ≤ w) :
    roundedValue v ≤ roundedValue w := by
  rcases nonnegative.eq_or_lt with rfl | positive
  · rw [roundedValue_zero]
    unfold roundedValue
    positivity
  · exact roundedValue_mono_of_pos positive le

/-! ## Rounding in arithmetic -/

def signed (negative : Bool) : FloatForm → FloatForm
  | nan => nan
  | infinite _ => infinite negative
  | finite _ mantissa exponent => finite negative mantissa exponent

private theorem shift_of_fits {mantissa : Nat} {exponent : Int} (fits : mantissa < 2 * leastNormal)
    (least : leastExponent ≤ exponent) :
    shiftToTargetExponent Format.binary64 mantissa exponent .exact =
      (⟨mantissa, false, false⟩, exponent) := by
  have bits : mantissa.log2 < 53 := by
    by_cases zero : mantissa = 0
    · rw [zero]
      decide
    · exact (Nat.log2_lt zero).mpr fits
  have low : Format.binary64.targetExponent (totalExponent mantissa exponent) ≤ exponent := by
    apply max_le
    · change (mantissa.log2 + 1 + exponent : Int) - 53 ≤ exponent
      omega
    · exact least
  have none : (Format.binary64.targetExponent (totalExponent mantissa exponent) - exponent).toNat = 0 := by
    omega
  simp only [shiftToTargetExponent, shiftToExponent, none, Nat.cast_zero, add_zero]
  rfl

private theorem shift_of_full {exponent : Int} (least : leastExponent ≤ exponent) :
    shiftToTargetExponent Format.binary64 (2 * leastNormal) exponent .exact =
      (⟨leastNormal, false, false⟩, exponent + 1) := by
  have high : Format.binary64.targetExponent (totalExponent (2 * leastNormal) exponent) = exponent + 1 := by
    have log : (2 * leastNormal).log2 = 53 := by decide +kernel
    have lowest : Format.binary64.minExponent = leastExponent := rfl
    have bits : (Format.binary64.mantissaBits : Int) = 53 := rfl
    unfold Format.targetExponent totalExponent
    rw [log, lowest, bits, max_eq_left] <;> omega
  have one : (exponent + 1 - exponent).toNat = 1 := by omega
  simp only [shiftToTargetExponent, shiftToExponent, high, one, Nat.cast_one]
  rfl

/-- What arithmetic rounds is rounded to the nearest float. -/
theorem ofFloat_packed_roundWithAccuracy (negative : Bool) {mantissa : Nat} {exponent : Int}
    {accuracy : Accuracy} {q : ℚ} (positive : 0 < q)
    (represents : Represents (.ofMantissaAndAccuracy mantissa accuracy) q)
    (low : exponent ≤ unitExponent (q * 2 ^ exponent)) :
    ofFloat (packed (roundWithAccuracy Format.binary64 (sign negative) mantissa exponent accuracy)) =
      (nearest (q * 2 ^ exponent)).signed negative := by
  have same : (ExtendedMantissa.ofMantissaAndAccuracy mantissa accuracy).mantissa = mantissa := by
    rcases accuracy with _ | _ | _ | _ <;> rfl
  have target := targetExponent_eq_unitExponent represents positive low
  have above : 0 < q * 2 ^ exponent := mul_pos positive (zpow_pos (by norm_num) _)
  generalize value : q * 2 ^ exponent = v at *
  rw [same] at target
  have least : leastExponent ≤ unitExponent v := le_max_left _ _
  obtain ⟨n, raised⟩ : ∃ n : Nat, unitExponent v = exponent + n :=
    ⟨(unitExponent v - exponent).toNat, by omega⟩
  have cut : q / 2 ^ n = v / 2 ^ unitExponent v := by
    rw [raised, ← value, zpow_add₀ (by norm_num), zpow_natCast]
    field_simp
  have rounded := (represents.shiftRight n).roundedMantissa_eq
  rw [cut] at rounded
  have first : shiftToTargetExponent Format.binary64 mantissa exponent accuracy =
      (ExtendedMantissa.ofMantissaAndAccuracy mantissa accuracy >>> n, unitExponent v) := by
    simp only [shiftToTargetExponent, shiftToExponent, target, raised]
    rw [show (exponent + n - exponent).toNat = n by omega]
  simp only [roundWithAccuracy, first, rounded]
  rcases (roundEven_unit_le above).lt_or_eq with fits | full
  · simp only [shift_of_fits fits least]
    rw [nearest_of_fits above fits]
    by_cases zero : roundEven (v / 2 ^ unitExponent v) = 0
    · -- what is rounded to zero is so small that its unit is the least one
      have lowest : unitExponent v = leastExponent := by
        by_contra other
        have large := le_roundEven_unit above (lt_of_le_of_ne least (Ne.symm other))
        rw [zero] at large
        exact absurd large (by decide)
      rw [dif_pos zero, ofFloat_packed_zero, zero, lowest, if_neg (by decide)]
      rfl
    · rw [dif_neg zero, ofFloat_packed_finite negative _ fits least (le_roundEven_unit above)]
      split <;> rfl
  · simp only [full, shift_of_full least]
    rw [nearest_of_carry above full, dif_neg (by decide),
      ofFloat_packed_finite negative _ (by decide) (by omega) (fun _ => le_rfl)]
    split <;> rfl

theorem decreaseExponent_mul (mantissa : Nat) (exponent target : Int) :
    ((decreaseExponent mantissa exponent target).1 : ℚ) *
      2 ^ (decreaseExponent mantissa exponent target).2 = mantissa * 2 ^ exponent := by
  simp only [decreaseExponent, Nat.shiftLeft_eq, Nat.cast_mul, Nat.cast_pow, Nat.cast_ofNat]
  rw [← zpow_natCast, mul_assoc, ← zpow_add₀ (by norm_num)]
  congr 2
  omega

theorem decreaseExponent_le (mantissa : Nat) (exponent target : Int) :
    (decreaseExponent mantissa exponent target).2 ≤ target := by
  simp only [decreaseExponent]
  omega

/-- What arithmetic normalizes is rounded to the nearest float. -/
theorem ofFloat_packed_round (negative : Bool) {mantissa : Nat} (positive : 0 < mantissa)
    (exponent : Int) :
    ofFloat (packed (UnpackedFloat.round Format.binary64 (sign negative) mantissa exponent)) =
      (nearest (mantissa * 2 ^ exponent)).signed negative := by
  have target : Format.binary64.targetExponent (totalExponent mantissa exponent) =
      unitExponent (mantissa * 2 ^ exponent) :=
    unitExponent_eq_targetExponent (represents_exact mantissa) positive exponent
  have value := decreaseExponent_mul mantissa exponent (unitExponent (mantissa * 2 ^ exponent))
  have low := decreaseExponent_le mantissa exponent (unitExponent (mantissa * 2 ^ exponent))
  have kept : 0 < (decreaseExponent mantissa exponent (unitExponent (mantissa * 2 ^ exponent))).1 := by
    simp only [decreaseExponent, Nat.shiftLeft_eq]
    positivity
  simp only [UnpackedFloat.round, target]
  generalize decreaseExponent mantissa exponent (unitExponent (mantissa * 2 ^ exponent)) = parts at *
  rw [← value] at low ⊢
  exact ofFloat_packed_roundWithAccuracy negative (Nat.cast_pos.mpr kept) (represents_exact _) low

theorem ofFloat_packed_normalize {i : Int} (nonzero : i ≠ 0) (exponent : Int) (zeroSign : Sign) :
    ofFloat (packed (UnpackedFloat.normalize Format.binary64 i exponent zeroSign)) =
      (nearest (i.natAbs * 2 ^ exponent)).signed (decide (i < 0)) := by
  unfold UnpackedFloat.normalize
  rcases lt_trichotomy i 0 with below | rfl | above
  · rw [compare_lt_iff_lt.mpr below, decide_eq_true below, show i.natAbs = (-i).toNat by omega]
    exact ofFloat_packed_round true (by omega) exponent
  · exact absurd rfl nonzero
  · rw [compare_gt_iff_gt.mpr above, decide_eq_false above.le.not_gt, show i.natAbs = i.toNat by omega]
    exact ofFloat_packed_round false (by omega) exponent

end GraphQuery.FloatForm
