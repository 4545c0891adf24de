import GraphQuery.Proofs.Decimal.Order

/-! # Differences and products of floats

The difference and the product of two finite floats are the exact ones, rounded to the nearest
float.
-/

namespace GraphQuery.FloatForm

open Float.Model (Format UnpackedFloat totalExponent)
open Float.Model.UnpackedFloat

theorem sub_eq_packed (x y : Float) :
    x - y = packed (sub Format.binary64 (ofFloat x).unpacked (ofFloat y).unpacked) := by
  rw [← unpack_eq, ← unpack_eq]
  rfl

theorem mul_eq_packed (x y : Float) :
    x * y = packed (mul Format.binary64 (ofFloat x).unpacked (ofFloat y).unpacked) := by
  rw [← unpack_eq, ← unpack_eq]
  rfl

/-- A float is nearest to itself. -/
theorem nearest_self {m : Nat} {e : Int} (canonical : IsCanonical m e) (positive : 0 < m) :
    nearest (m * 2 ^ e) = finite false m e := by
  have unit : (0 : ℚ) < 2 ^ e := zpow_pos (by norm_num) _
  apply nearest_eq canonical positive
  refine .inl ⟨?_, ?_⟩
  · gcongr
    split <;> linarith
  · gcongr
    linarith

/-- A finite float is packed as it is. -/
theorem ofFloat_packed_self (negative : Bool) {m : Nat} {e : Int} (canonical : IsCanonical m e)
    (positive : 0 < m) :
    ofFloat (packed (.finite (sign negative) m e positive)) = finite negative m e := by
  rw [ofFloat_packed_finite negative positive canonical.mantissa_lt canonical.least_le canonical.normal,
    if_neg canonical.le_greatest.not_gt]

theorem neg_sign (negative : Bool) : -sign negative = sign (!negative) := by
  cases negative <;> rfl

theorem mul_sign (n k : Bool) : sign n * sign k = sign (n != k) := by
  cases n <;> cases k <;> rfl

theorem abs_value (n : Bool) (m : Nat) (e : Int) : |value n m e| = m * 2 ^ e := by
  cases n
  · rw [value_false, abs_of_nonneg (by positivity)]
  · rw [value_true, abs_neg, abs_of_nonneg (by positivity)]

private theorem apply_mul (n : Bool) (m : Nat) (e least : Int) (le : least ≤ e) :
    ((sign n).apply (decreaseExponent m e least).1 : ℚ) * 2 ^ least = value n m e := by
  have exponent : (decreaseExponent m e least).2 = least := by
    simp only [decreaseExponent]
    omega
  have value := decreaseExponent_mul m e least
  rw [exponent] at value
  cases n
  · rw [value_false, ← value]
    rfl
  · rw [value_true, ← value]
    simp [sign, Sign.apply]

theorem nearest_zero : nearest 0 = finite false 0 leastExponent :=
  if_pos rfl

/-- The difference of two finite floats is rounded to the nearest float. -/
theorem ofFloat_sub {x y : Float} {n k : Bool} {m l : Nat} {d e : Int}
    (first : ofFloat x = finite n m d) (second : ofFloat y = finite k l e) :
    ∃ negative, ofFloat (x - y) = (nearest |value n m d - value k l e|).signed negative ∧
      (value k l e < value n m d → negative = false) := by
  have canonical := isCanonical_of_ofFloat first
  have canonical' := isCanonical_of_ofFloat second
  rw [sub_eq_packed, first, second]
  rcases Nat.eq_zero_or_pos m with rfl | mPos <;> rcases Nat.eq_zero_or_pos l with rfl | lPos
  · simp only [value_zero, sub_zero, abs_zero, nearest_zero, lt_irrefl, false_implies, and_true]
    cases n <;> cases k
    · exact ⟨false, ofFloat_packed_zero false⟩
    · exact ⟨false, ofFloat_packed_zero false⟩
    · exact ⟨true, ofFloat_packed_zero true⟩
    · exact ⟨false, ofFloat_packed_zero false⟩
  · rw [unpacked_zero, unpacked_finite _ _ lPos, value_zero, zero_sub, abs_neg, abs_value,
      nearest_self canonical' lPos]
    refine ⟨!k, ?_, ?_⟩
    · have flipped := ofFloat_packed_self (!k) canonical' lPos
      rw [← neg_sign] at flipped
      exact flipped
    · intro less
      cases k
      · exact absurd less (value_pos lPos e).not_gt
      · rfl
  · rw [unpacked_zero, unpacked_finite _ _ mPos, value_zero, sub_zero, abs_value,
      nearest_self canonical mPos]
    refine ⟨n, ofFloat_packed_self n canonical mPos, ?_⟩
    intro less
    cases n
    · rfl
    · exact absurd less (value_neg mPos d).not_gt
  · rw [unpacked_finite _ _ mPos, unpacked_finite _ _ lPos]
    have exact := apply_mul n m d (min d e) (min_le_left _ _)
    have exact' := apply_mul k l e (min d e) (min_le_right _ _)
    have unit : (0 : ℚ) < 2 ^ min d e := zpow_pos (by norm_num) _
    simp only [sub]
    generalize (sign n).apply (decreaseExponent m d (min d e)).1 = i at *
    generalize (sign k).apply (decreaseExponent l e (min d e)).1 = j at *
    have size : |(i : ℚ) * 2 ^ min d e - j * 2 ^ min d e| = (i - j).natAbs * 2 ^ min d e := by
      rw [← sub_mul, abs_mul, abs_of_pos unit, Nat.cast_natAbs]
      push_cast
      rfl
    rw [← exact, ← exact', size]
    rcases eq_or_ne (i - j) 0 with zero | nonzero
    · rw [zero, Int.natAbs_zero, Nat.cast_zero, zero_mul, nearest_zero]
      exact ⟨false, ofFloat_packed_zero false, fun _ => rfl⟩
    · rw [ofFloat_packed_normalize nonzero]
      refine ⟨_, rfl, ?_⟩
      intro less
      have : j < i := by
        rw [mul_lt_mul_iff_left₀ unit] at less
        exact_mod_cast less
      rw [decide_eq_false]
      omega

private theorem add_le_unitExponent {m l : Nat} {d e : Int} (first : IsCanonical m d)
    (second : IsCanonical l e) (mPos : 0 < m) (lPos : 0 < l) :
    d + e ≤ unitExponent ((m * l : ℕ) * 2 ^ (d + e)) := by
  have unit : (0 : ℚ) < 2 ^ (d + e) := zpow_pos (by norm_num) _
  by_cases large : leastNormal ≤ m * l
  · apply le_max_of_le_right
    have above : ((2 : ℕ) : ℚ) ^ (52 + (d + e)) ≤ (m * l : ℕ) * 2 ^ (d + e) := by
      have whole : (2 : ℚ) ^ (52 : ℤ) ≤ (m * l : ℕ) := by exact_mod_cast large
      rw [Nat.cast_ofNat, zpow_add₀ (by norm_num)]
      exact mul_le_mul_of_nonneg_right whole unit.le
    rw [Int.zpow_le_iff_le_log (by norm_num) (by positivity)] at above
    omega
  · -- neither mantissa is full, so both exponents are the least one
    apply le_max_of_le_left
    have small : m < leastNormal := by
      by_contra full
      exact large ((not_lt.mp full).trans (Nat.le_mul_of_pos_right m lPos))
    have small' : l < leastNormal := by
      by_contra full
      exact large ((not_lt.mp full).trans (Nat.le_mul_of_pos_left l mPos))
    have least : d ≤ leastExponent := not_lt.mp (mt first.normal small.not_ge)
    have least' : e ≤ leastExponent := not_lt.mp (mt second.normal small'.not_ge)
    have negative : leastExponent ≤ 0 := by decide
    omega

/-- The product of two finite floats is rounded to the nearest float. -/
theorem ofFloat_mul {x y : Float} {n k : Bool} {m l : Nat} {d e : Int}
    (first : ofFloat x = finite n m d) (second : ofFloat y = finite k l e) :
    ofFloat (x * y) = (nearest |value n m d * value k l e|).signed (n != k) := by
  have canonical := isCanonical_of_ofFloat first
  have canonical' := isCanonical_of_ofFloat second
  rw [mul_eq_packed, first, second]
  rcases Nat.eq_zero_or_pos m with rfl | mPos
  · rw [value_zero, zero_mul, abs_zero, nearest_zero, unpacked_zero]
    obtain ⟨positive, parts⟩ | parts := unpacked_finite_cases k l e <;>
      rw [parts, mul, mul_sign, ofFloat_packed_zero] <;> rfl
  rcases Nat.eq_zero_or_pos l with rfl | lPos
  · rw [value_zero, mul_zero, abs_zero, nearest_zero, unpacked_zero, unpacked_finite _ _ mPos]
    rw [mul, mul_sign, ofFloat_packed_zero]
    rfl
  rw [unpacked_finite _ _ mPos, unpacked_finite _ _ lPos, mul, mul_sign]
  have size : |value n m d * value k l e| = (m * l : ℕ) * 2 ^ (d + e) := by
    rw [abs_mul, abs_value, abs_value, zpow_add₀ (by norm_num)]
    push_cast
    ring
  rw [size]
  exact ofFloat_packed_roundWithAccuracy _ (Nat.cast_pos.mpr (Nat.mul_pos mPos lPos))
    (represents_exact _) (add_le_unitExponent canonical canonical' mPos lPos)

/-! ## The places of results -/

/-- The least number that is too large for floats. -/
def reach : ℚ :=
  leastNormal * 2 ^ (greatestExponent + 1)

/-- The place of an exact result that may be too large. -/
def reached (v : ℚ) : Place :=
  if v < reach then .of v else ⊤

theorem reach_pos : 0 < reach :=
  mul_pos (Nat.cast_pos.mpr (by decide)) (zpow_pos (by norm_num) _)

theorem reached_mono {v w : ℚ} (le : v ≤ w) : reached v ≤ reached w := by
  unfold reached
  by_cases small : w < reach
  · rw [if_pos small, if_pos (le.trans_lt small)]
    exact Place.of_le_of.mpr le
  · rw [if_neg small]
    exact le_top

private theorem place?_of_parts {m : Nat} {e : Int} (small : m < 2 * leastNormal)
    (normal : leastExponent < e → leastNormal ≤ m) :
    (if greatestExponent < e then infinite false else finite false m e).place? =
      some (reached (m * 2 ^ e)) := by
  have unit : (0 : ℚ) < 2 ^ e := zpow_pos (by norm_num) _
  unfold reached
  by_cases large : greatestExponent < e
  · have full : leastNormal ≤ m := normal (lt_trans (by decide) large)
    have above : reach ≤ m * 2 ^ e := by
      unfold reach
      gcongr
      · norm_num
      · exact large
    rw [if_pos large, if_neg above.not_gt]
    rfl
  · have below : (m * 2 ^ e : ℚ) < reach := by
      have less : (m : ℚ) < (2 * leastNormal : ℕ) := by exact_mod_cast small
      calc (m * 2 ^ e : ℚ) < (2 * leastNormal : ℕ) * 2 ^ e := by gcongr
        _ ≤ (2 * leastNormal : ℕ) * 2 ^ greatestExponent := by
          gcongr
          · norm_num
          · exact not_lt.mp large
        _ = reach := by
          rw [reach, zpow_add_one₀ (by norm_num)]
          push_cast
          ring
    rw [if_neg large, if_pos below, place?, value_false]

theorem place?_nearest {v : ℚ} (nonnegative : 0 ≤ v) :
    (nearest v).place? = some (reached (roundedValue v)) := by
  rcases nonnegative.eq_or_lt with rfl | positive
  · rw [nearest_zero, roundedValue_zero, place?, value_zero, reached, if_pos reach_pos]
  · unfold roundedValue
    rcases (roundEven_unit_le positive).lt_or_eq with fits | full
    · rw [nearest_of_fits positive fits, place?_of_parts fits (le_roundEven_unit positive)]
    · have carried : (roundEven (v / 2 ^ unitExponent v) : ℚ) * 2 ^ unitExponent v =
          leastNormal * 2 ^ (unitExponent v + 1) := by
        rw [full, zpow_add_one₀ (by norm_num)]
        push_cast
        ring
      rw [nearest_of_carry positive full, place?_of_parts (by decide) (fun _ => le_rfl), carried]

theorem signed_false_nearest (v : ℚ) : (nearest v).signed false = nearest v := by
  unfold nearest
  split
  · rfl
  · simp only
    split <;> split <;> rfl

theorem place?_nearest_signed {v : ℚ} {negative : Bool} (nonnegative : 0 ≤ v)
    (positive : 0 < v → negative = false) :
    ((nearest v).signed negative).place? = some (reached (roundedValue v)) := by
  rcases nonnegative.eq_or_lt with rfl | above
  · rw [← place?_nearest le_rfl, nearest_zero, signed, place?, place?, value_zero, value_zero]
  · rw [positive above, signed_false_nearest, place?_nearest nonnegative]

theorem finite_of_place? {f : FloatForm} {q : ℚ} (at? : f.place? = some (.of q)) :
    ∃ negative mantissa exponent, f = finite negative mantissa exponent ∧
      value negative mantissa exponent = q := by
  cases f with
  | nan => cases at?
  | infinite negative =>
    cases negative
    · exact absurd (Option.some.inj at?) Place.of_lt_top.ne'
    · exact absurd (Option.some.inj at?) Place.bot_lt_of.ne
  | finite negative mantissa exponent =>
    refine ⟨negative, mantissa, exponent, rfl, ?_⟩
    have same := Option.some.inj at?
    exact le_antisymm (Place.of_le_of.mp same.le) (Place.of_le_of.mp same.ge)

theorem infinite_of_place?_top {f : FloatForm} (at? : f.place? = some ⊤) : f = infinite false := by
  cases f with
  | nan => cases at?
  | infinite negative => cases negative <;> first | rfl | cases at?
  | finite negative m e => exact absurd (Option.some.inj at?) Place.of_lt_top.ne

theorem infinite_of_place?_bot {f : FloatForm} (at? : f.place? = some ⊥) : f = infinite true := by
  cases f with
  | nan => cases at?
  | infinite negative => cases negative <;> first | rfl | cases at?
  | finite negative m e => exact absurd (Option.some.inj at?) Place.bot_lt_of.ne'

theorem nan_of_place?_none {f : FloatForm} (nowhere : f.place? = none) : f = nan := by
  cases f with
  | nan => rfl
  | infinite negative => cases nowhere
  | finite negative m e => cases nowhere

/-- Differences that are not negative have the places of the exact ones, rounded. -/
theorem place?_sub {x y : Float} {p q : ℚ} (first : (ofFloat x).place? = some (.of p))
    (second : (ofFloat y).place? = some (.of q)) (le : q ≤ p) :
    (ofFloat (x - y)).place? = some (reached (roundedValue (p - q))) := by
  obtain ⟨n, m, d, read, rfl⟩ := finite_of_place? first
  obtain ⟨k, l, e, read', rfl⟩ := finite_of_place? second
  obtain ⟨negative, rounded, positive⟩ := ofFloat_sub read read'
  rw [rounded, abs_of_nonneg (sub_nonneg.mpr le)]
  exact place?_nearest_signed (sub_nonneg.mpr le) fun above => positive (sub_pos.mp above)

theorem eq_false_of_value_pos {n : Bool} {m : Nat} {e : Int} (positive : 0 < value n m e) : n = false := by
  cases n
  · rfl
  · rw [value_true, neg_pos] at positive
    exact absurd positive (not_lt.mpr (by positivity))

/-- Products of numbers that are not negative have the places of the exact ones, rounded. -/
theorem place?_mul {x y : Float} {p q : ℚ} (first : (ofFloat x).place? = some (.of p))
    (second : (ofFloat y).place? = some (.of q)) (left : 0 ≤ p) (right : 0 ≤ q) :
    (ofFloat (x * y)).place? = some (reached (roundedValue (p * q))) := by
  obtain ⟨n, m, d, read, rfl⟩ := finite_of_place? first
  obtain ⟨k, l, e, read', rfl⟩ := finite_of_place? second
  rw [ofFloat_mul read read', abs_of_nonneg (mul_nonneg left right)]
  refine place?_nearest_signed (mul_nonneg left right) fun above => ?_
  rw [eq_false_of_value_pos (pos_of_mul_pos_left above right),
    eq_false_of_value_pos (pos_of_mul_pos_right above left)]
  rfl

/-! ## Operands that are not finite -/

theorem ofFloat_nan_mul {x : Float} (first : ofFloat x = nan) (y : Float) : ofFloat (x * y) = nan := by
  rw [mul_eq_packed, first]
  exact ofFloat_packed_notANumber

section Infinite

variable {x y : Float} {n k : Bool} {m : Nat} {e : Int}

theorem ofFloat_infinite_sub_infinite (first : ofFloat x = infinite n) (second : ofFloat y = infinite k) :
    ofFloat (x - y) = if n = k then nan else infinite n := by
  rw [sub_eq_packed, first, second]
  cases n <;> cases k <;> decide +kernel

theorem ofFloat_infinite_sub (first : ofFloat x = infinite n) (second : ofFloat y = finite k m e) :
    ofFloat (x - y) = infinite n := by
  rw [sub_eq_packed, first, second]
  obtain ⟨positive, parts⟩ | parts := unpacked_finite_cases k m e <;> rw [parts] <;>
    exact ofFloat_packed_infinity n

theorem ofFloat_sub_infinite (first : ofFloat x = finite k m e) (second : ofFloat y = infinite n) :
    ofFloat (x - y) = infinite !n := by
  rw [sub_eq_packed, first, second]
  have flipped := ofFloat_packed_infinity !n
  rw [← neg_sign] at flipped
  obtain ⟨positive, parts⟩ | parts := unpacked_finite_cases k m e <;> rw [parts] <;> exact flipped

theorem ofFloat_infinite_mul (first : ofFloat x = infinite n) (second : ofFloat y = finite k m e)
    (positive : 0 < m) : ofFloat (x * y) = infinite (n != k) := by
  rw [mul_eq_packed, first, second, unpacked_finite _ _ positive]
  have product := ofFloat_packed_infinity (n != k)
  rw [← mul_sign] at product
  exact product

end Infinite

end GraphQuery.FloatForm
