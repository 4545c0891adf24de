import GraphQuery.Proofs.Decimal.Binary

/-! # Rounding to floats

`FloatForm.nearest` rounds a number to the nearest float, half of a distance to the even neighbour: it
rounds to a multiple of the unit of the number, and may so arrive at the next power of two. The
numbers that are rounded to one float are those of an interval around it, which `RoundsTo` describes;
below a power of two the interval is half as long.
-/

namespace GraphQuery.FloatForm

/-- A number rounded to the nearest integer, a half to the even one. -/
def roundEven (q : ℚ) : Nat :=
  let low := ⌊q⌋₊
  let rest := 2 * (q - low)
  if rest < 1 then low
  else if 1 < rest then low + 1
  else if low % 2 = 0 then low else low + 1

def greatestExponent : Int := 971

/-- The float that is nearest to a number, without its sign. -/
def nearest (v : ℚ) : FloatForm :=
  if v = 0 then finite false 0 leastExponent
  else
    let exponent := max leastExponent (Int.log 2 v - 52)
    let mantissa := roundEven (v / 2 ^ exponent)
    let (mantissa, exponent) :=
      if mantissa = 2 * leastNormal then (leastNormal, exponent + 1) else (mantissa, exponent)
    if greatestExponent < exponent then infinite false else finite false mantissa exponent

/-- Mantissas and exponents of floats. -/
structure IsCanonical (mantissa : Nat) (exponent : Int) : Prop where
  mantissa_lt : mantissa < 2 * leastNormal
  least_le : leastExponent ≤ exponent
  le_greatest : exponent ≤ greatestExponent
  normal : leastExponent < exponent → leastNormal ≤ mantissa

/-- The numbers that are rounded to a float. Half of a distance away they are rounded to it only if
its mantissa is even. -/
def RoundsTo (v : ℚ) (mantissa : Nat) (exponent : Int) : Prop :=
  let below : ℚ := if mantissa = leastNormal ∧ leastExponent < exponent then 1 / 4 else 1 / 2
  let lowest := (mantissa - below) * (2 : ℚ) ^ exponent
  let highest := (mantissa + 1 / 2) * (2 : ℚ) ^ exponent
  (lowest < v ∧ v < highest) ∨ (mantissa % 2 = 0 ∧ (v = lowest ∨ v = highest))

theorem isCanonical_of_ofFloat {x : Float} {negative : Bool} {mantissa : Nat} {exponent : Int}
    (read : ofFloat x = finite negative mantissa exponent) : IsCanonical mantissa exponent := by
  have unit : leastNormal = 2 ^ 52 := rfl
  have least : leastExponent = -1074 := rfl
  have greatest : greatestExponent = 971 := rfl
  simp only [ofFloat, unit] at read
  split at read
  · split at read <;> simp at read
  · split at read
    · simp only [finite.injEq] at read
      constructor <;> omega
    · simp only [finite.injEq] at read
      constructor <;> omega

/-! ## Integers -/

theorem floor_le_roundEven (q : ℚ) : ⌊q⌋₊ ≤ roundEven q := by
  unfold roundEven
  grind

theorem roundEven_le_succ (q : ℚ) : roundEven q ≤ ⌊q⌋₊ + 1 := by
  unfold roundEven
  grind

theorem roundEven_mono {p q : ℚ} (le : p ≤ q) : roundEven p ≤ roundEven q := by
  rcases (Nat.floor_mono le).lt_or_eq with less | same
  · have below := roundEven_le_succ p
    have above := floor_le_roundEven q
    omega
  · unfold roundEven
    rw [same]
    have rest : 2 * (p - ⌊q⌋₊) ≤ 2 * (q - ⌊q⌋₊) := by linarith
    grind

@[simp] theorem roundEven_natCast (n : ℕ) : roundEven n = n := by
  simp [roundEven]

/-! ## The unit of a number -/

/-- The exponent to which a number is rounded. -/
def unitExponent (v : ℚ) : Int :=
  max leastExponent (Int.log 2 v - 52)

theorem unitExponent_mono {v w : ℚ} (positive : 0 < v) (le : v ≤ w) : unitExponent v ≤ unitExponent w :=
  max_le_max le_rfl (sub_le_sub_right (Int.log_mono_right positive le) 52)

/-- A number is less than `2 ^ 53` of its units. -/
theorem lt_of_unitExponent {v : ℚ} (positive : 0 < v) : v < 2 ^ (unitExponent v + 53) := by
  have below : v < ((2 : ℕ) : ℚ) ^ (unitExponent v + 53) := by
    rw [Int.lt_zpow_iff_log_lt (by norm_num) positive]
    unfold unitExponent
    omega
  exact_mod_cast below

/-- Unless its unit is the least one, a number is at least `2 ^ 52` of its units. -/
theorem le_of_unitExponent {v : ℚ} (positive : 0 < v) (greater : leastExponent < unitExponent v) :
    2 ^ (unitExponent v + 52) ≤ v := by
  have above : ((2 : ℕ) : ℚ) ^ (unitExponent v + 52) ≤ v := by
    rw [Int.zpow_le_iff_le_log (by norm_num) positive]
    unfold unitExponent at *
    omega
  exact_mod_cast above

section Units

variable {v : ℚ} (positive : 0 < v)

include positive

theorem roundEven_unit_le : roundEven (v / 2 ^ unitExponent v) ≤ 2 * leastNormal := by
  have unit : (0 : ℚ) < 2 ^ unitExponent v := zpow_pos (by norm_num) _
  rw [← roundEven_natCast (2 * leastNormal)]
  apply roundEven_mono
  have less := lt_of_unitExponent positive
  rw [zpow_add₀ (by norm_num), mul_comm] at less
  rw [div_le_iff₀ unit]
  refine less.le.trans_eq ?_
  congr 1

theorem le_roundEven_unit (greater : leastExponent < unitExponent v) :
    leastNormal ≤ roundEven (v / 2 ^ unitExponent v) := by
  have unit : (0 : ℚ) < 2 ^ unitExponent v := zpow_pos (by norm_num) _
  rw [← roundEven_natCast leastNormal]
  apply roundEven_mono
  have least := le_of_unitExponent positive greater
  rw [zpow_add₀ (by norm_num), mul_comm] at least
  rw [le_div_iff₀ unit]
  refine le_trans (le_of_eq ?_) least
  congr 1

theorem nearest_of_fits (fits : roundEven (v / 2 ^ unitExponent v) < 2 * leastNormal) :
    nearest v = if greatestExponent < unitExponent v then infinite false
      else finite false (roundEven (v / 2 ^ unitExponent v)) (unitExponent v) := by
  have unit : max leastExponent (Int.log 2 v - 52) = unitExponent v := rfl
  simp only [nearest, unit]
  rw [if_neg positive.ne', if_neg fits.ne]

theorem nearest_of_carry (full : roundEven (v / 2 ^ unitExponent v) = 2 * leastNormal) :
    nearest v = if greatestExponent < unitExponent v + 1 then infinite false
      else finite false leastNormal (unitExponent v + 1) := by
  have unit : max leastExponent (Int.log 2 v - 52) = unitExponent v := rfl
  simp only [nearest, unit]
  rw [if_neg positive.ne', if_pos full]

end Units

/-! ## The interval of a float is rounded to it -/

private theorem roundEven_eq {q : ℚ} {m : Nat} (positive : 0 < m) (lower : (m : ℚ) - 1 / 2 ≤ q)
    (upper : q ≤ m + 1 / 2) (odd : m % 2 = 1 → (m : ℚ) - 1 / 2 < q ∧ q < m + 1 / 2) :
    roundEven q = m := by
  by_cases above : (m : ℚ) ≤ q
  · have nonnegative : 0 ≤ q := by linarith [(m.cast_nonneg : (0 : ℚ) ≤ m)]
    have low : ⌊q⌋₊ = m := (Nat.floor_eq_iff nonnegative).mpr ⟨above, by linarith⟩
    simp only [roundEven, low]
    rw [if_neg (c := 1 < _) (by linarith)]
    split
    · rfl
    · split
      · rfl
      · have strict := (odd (by omega)).2
        linarith
  · obtain ⟨k, rfl⟩ : ∃ k, m = k + 1 := ⟨m - 1, by omega⟩
    push_cast at *
    have low : ⌊q⌋₊ = k :=
      (Nat.floor_eq_iff (by linarith [(k.cast_nonneg : (0 : ℚ) ≤ k)])).mpr ⟨by linarith, by linarith⟩
    simp only [roundEven, low]
    rw [if_neg (by linarith)]
    split
    · rfl
    · split
      · have strict := (odd (by omega)).1
        linarith
      · rfl

private theorem exponent_eq {v : ℚ} {exponent : Int} (positive : 0 < v)
    (least : leastExponent ≤ exponent) (upper : v / 2 ^ exponent < 2 ^ 53)
    (lower : leastExponent < exponent → 2 ^ 52 ≤ v / 2 ^ exponent) :
    unitExponent v = exponent := by
  have unit : (0 : ℚ) < 2 ^ exponent := zpow_pos (by norm_num) _
  unfold unitExponent
  have below : Int.log 2 v < exponent + 53 := by
    rw [← Int.lt_zpow_iff_log_lt (by norm_num) positive]
    calc v = v / 2 ^ exponent * 2 ^ exponent := by field_simp
      _ < 2 ^ 53 * 2 ^ exponent := by gcongr
      _ = ((2 : ℕ) : ℚ) ^ (exponent + 53) := by
        push_cast
        rw [zpow_add₀ (by norm_num)]
        ring
  rcases least.eq_or_lt with rfl | greater
  · omega
  · have above : exponent + 52 ≤ Int.log 2 v := by
      rw [← Int.zpow_le_iff_le_log (by norm_num) positive]
      calc ((2 : ℕ) : ℚ) ^ (exponent + 52) = 2 ^ 52 * 2 ^ exponent := by
            push_cast
            rw [zpow_add₀ (by norm_num)]
            ring
        _ ≤ v / 2 ^ exponent * 2 ^ exponent := by
            have enough := lower greater
            gcongr
        _ = v := by field_simp
    omega

private theorem RoundsTo.bounds {v : ℚ} {m : Nat} {exponent : Int} (rounds : RoundsTo v m exponent) :
    (m : ℚ) - (if m = leastNormal ∧ leastExponent < exponent then 1 / 4 else 1 / 2) ≤ v / 2 ^ exponent ∧
      v / 2 ^ exponent ≤ m + 1 / 2 ∧
      (m % 2 = 1 → (m : ℚ) - 1 / 2 < v / 2 ^ exponent ∧ v / 2 ^ exponent < m + 1 / 2) := by
  have unit : (0 : ℚ) < 2 ^ exponent := zpow_pos (by norm_num) _
  rw [le_div_iff₀ unit, div_le_iff₀ unit, lt_div_iff₀ unit, div_lt_iff₀ unit]
  rcases rounds with ⟨lower, upper⟩ | ⟨even, edge⟩
  · refine ⟨lower.le, upper.le, fun odd => ⟨?_, upper⟩⟩
    have notNarrow : ¬(m = leastNormal ∧ leastExponent < exponent) := by
      rintro ⟨rfl, -⟩
      exact absurd odd (by decide)
    rwa [if_neg notNarrow] at lower
  · refine ⟨?_, ?_, fun odd => by omega⟩
    · rcases edge with rfl | rfl
      · exact le_rfl
      · gcongr
        split <;> linarith
    · rcases edge with rfl | rfl
      · gcongr
        split <;> linarith
      · exact le_rfl

/-- A number in the interval of a float is rounded to the float. -/
theorem nearest_eq {v : ℚ} {mantissa : Nat} {exponent : Int}
    (canonical : IsCanonical mantissa exponent) (positive : 0 < mantissa)
    (rounds : RoundsTo v mantissa exponent) : nearest v = finite false mantissa exponent := by
  obtain ⟨small, least, finite, normal⟩ := canonical
  obtain ⟨lower, upper, odd⟩ := rounds.bounds
  have unit : (0 : ℚ) < 2 ^ exponent := zpow_pos (by norm_num) _
  have whole : leastNormal = 2 ^ 52 := rfl
  have atLeastOne : (1 : ℚ) ≤ mantissa := by exact_mod_cast positive
  have lower' : (mantissa : ℚ) - 1 / 2 ≤ v / 2 ^ exponent := by
    refine le_trans ?_ lower
    split <;> linarith
  have above : 0 < v := by
    have inUnits : 0 < v / 2 ^ exponent := by linarith
    exact (div_pos_iff_of_pos_right unit).mp inUnits
  have below : v / 2 ^ exponent < 2 ^ 53 := by
    have next : (mantissa : ℚ) + 1 ≤ 2 ^ 53 := by exact_mod_cast small
    linarith
  by_cases narrow : mantissa = leastNormal ∧ leastExponent < exponent ∧ v / 2 ^ exponent < mantissa
  · obtain ⟨rfl, greater, under⟩ := narrow
    rw [if_pos ⟨rfl, greater⟩] at lower
    rw [whole] at lower under
    push_cast at lower under
    -- the number is below a power of two, so its own unit is half as large
    have doubled : v / 2 ^ (exponent - 1) = 2 * (v / 2 ^ exponent) := by
      rw [zpow_sub_one₀ (by norm_num)]
      field_simp
    have chosen : unitExponent v = exponent - 1 :=
      exponent_eq above (by omega) (by linarith) fun _ => by linarith
    have full : roundEven (v / 2 ^ unitExponent v) = 2 * leastNormal := by
      rw [chosen, doubled]
      apply roundEven_eq (by decide)
      · push_cast [whole]
        linarith
      · push_cast [whole]
        linarith
      · exact fun odd => absurd odd (by decide)
    rw [nearest_of_carry above full, chosen, sub_add_cancel, if_neg finite.not_gt]
  · have chosen : unitExponent v = exponent := by
      apply exponent_eq above least below
      intro greater
      rcases (normal greater).eq_or_lt with same | more
      · have notUnder : ¬v / 2 ^ exponent < mantissa :=
          fun under => narrow ⟨same.symm, greater, under⟩
        rw [← same, whole] at notUnder
        push_cast at notUnder
        linarith
      · have next : (2 : ℚ) ^ 52 + 1 ≤ mantissa := by exact_mod_cast more
        linarith
    have rounded : roundEven (v / 2 ^ unitExponent v) = mantissa := by
      rw [chosen]
      exact roundEven_eq positive lower' upper odd
    rw [nearest_of_fits above (by rwa [rounded]), rounded, chosen, if_neg finite.not_gt]

end GraphQuery.FloatForm
