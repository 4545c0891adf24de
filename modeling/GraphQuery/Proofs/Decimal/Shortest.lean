import GraphQuery.Decimal.Shortest
import GraphQuery.Proofs.Decimal.Nearest

/-! # Shortest decimals read back

The decimal that `Decimal.shortest` finds for a float lies in the interval of numbers that are
rounded to the float. Seventeen digits are always enough: the finest grid that is tried has a
smaller distance than the interval, so that one of the two points next to the float lies in it.
-/

namespace GraphQuery.Decimal

open FloatForm (leastNormal leastExponent IsCanonical RoundsTo)

def toRat (d : Decimal) : ℚ :=
  d.coefficient * 10 ^ d.scale

/-! ## Powers and digits -/

private theorem pow_toNat_div (b : ℚ) (k : Int) :
    b ^ k.toNat / b ^ (-k).toNat = b ^ k := by
  obtain ⟨n, rfl | rfl⟩ := k.eq_nat_or_neg
  · simp
  · simp

private theorem powerOfTen_div (k : Int) : ((powerOfTen k).1 : ℚ) / (powerOfTen k).2 = 10 ^ k := by
  simp only [powerOfTen, Nat.pow_eq, Nat.cast_pow, Nat.cast_ofNat]
  exact pow_toNat_div 10 k

theorem fraction_div (mantissa : Nat) (exponent : Int) :
    ((FloatForm.fraction mantissa exponent).1 : ℚ) / (FloatForm.fraction mantissa exponent).2 =
      mantissa * 2 ^ exponent := by
  simp only [FloatForm.fraction, Nat.pow_eq, Nat.cast_mul, Nat.cast_pow, Nat.cast_ofNat]
  rw [mul_div_assoc, pow_toNat_div]

theorem lt_pow_digitCount (n : Nat) : n < 10 ^ digitCount n :=
  (Nat.length_toDigits_le_iff (by decide) Nat.length_toDigits_pos).mp le_rfl

theorem pow_digitCount_le {n : Nat} (positive : 0 < n) : 10 ^ (digitCount n - 1) ≤ n := by
  rcases Nat.eq_zero_or_pos (digitCount n - 1) with one | more
  · rw [one]
    exact positive
  · by_contra less
    have fewer := (Nat.length_toDigits_le_iff (by decide) more).mpr (Nat.lt_of_not_le less)
    have some : 0 < digitCount n := Nat.length_toDigits_pos
    exact absurd fewer (by unfold digitCount at *; omega)

/-- The power of ten at the first digit of a fraction is not greater than the fraction. -/
theorem pow_leadingExponent_le {numerator denominator : Nat} (positive : 0 < numerator)
    (nonzero : 0 < denominator) :
    (10 : ℚ) ^ leadingExponent numerator denominator ≤ numerator / denominator := by
  have below : (0 : ℚ) < denominator := by exact_mod_cast nonzero
  rw [leadingExponent, le_div_iff₀ below]
  split
  · rename_i atLeastOne
    have some : 0 < numerator / denominator := Nat.div_pos atLeastOne nonzero
    have digits : 0 < digitCount (numerator / denominator) := Nat.length_toDigits_pos
    have first := pow_digitCount_le some
    have whole : 10 ^ (digitCount (numerator / denominator) - 1) * denominator ≤ numerator :=
      (Nat.mul_le_mul_right _ first).trans (Nat.div_mul_le_self _ _)
    have cast : ((digitCount (numerator / denominator) : Int) - 1) =
        ((digitCount (numerator / denominator) - 1 : Nat) : Int) := by omega
    rw [cast, zpow_natCast]
    exact_mod_cast whole
  · have first := lt_pow_digitCount ((denominator - 1) / numerator)
    rw [Nat.div_lt_iff_lt_mul positive] at first
    rw [zpow_neg, zpow_natCast, inv_mul_le_iff₀ (by positivity)]
    have whole : denominator ≤ 10 ^ digitCount ((denominator - 1) / numerator) * numerator := by omega
    exact_mod_cast whole

/-! ## Grids -/

private theorem Grid.exists_unit (exponent scale : Int) : ∃ unit : ℚ, 0 < unit ∧
    (Grid.at exponent scale).step * unit = 10 ^ scale ∧
    (Grid.at exponent scale).quarter * unit = 2 ^ exponent / 4 := by
  have tens := powerOfTen_div scale
  have twos := fraction_div 1 (exponent - 2)
  rw [Nat.cast_one, one_mul, zpow_sub₀ (by norm_num)] at twos
  have overTens : (0 : ℚ) < (powerOfTen scale).2 := by
    simp only [powerOfTen, Nat.pow_eq]
    positivity
  have overTwos : (0 : ℚ) < (FloatForm.fraction 1 (exponent - 2)).2 := by
    simp only [FloatForm.fraction, Nat.pow_eq]
    positivity
  refine ⟨1 / ((powerOfTen scale).2 * (FloatForm.fraction 1 (exponent - 2)).2), by positivity, ?_, ?_⟩
  · simp only [Grid.at, ← tens]
    push_cast
    field_simp
  · norm_num at twos
    simp only [Grid.at, ← twos]
    push_cast
    field_simp

private def quartersBelow (mantissa : Nat) (exponent : Int) : Nat :=
  if mantissa = leastNormal ∧ leastExponent < exponent then 1 else 2

private theorem Grid.readsBack_iff (grid : Grid) (mantissa units : Nat) (exponent : Int) :
    grid.readsBack mantissa exponent units = true ↔
      ((4 * mantissa - quartersBelow mantissa exponent) * grid.quarter < units ∧
        units < (4 * mantissa + 2) * grid.quarter) ∨
      (mantissa % 2 = 0 ∧ (units = (4 * mantissa - quartersBelow mantissa exponent) * grid.quarter ∨
        units = (4 * mantissa + 2) * grid.quarter)) := by
  simp [Grid.readsBack, quartersBelow]

private theorem Grid.roundsTo_of_readsBack {mantissa point : Nat} {exponent scale : Int}
    (positive : 0 < mantissa)
    (hits : (Grid.at exponent scale).readsBack mantissa exponent
      (point * (Grid.at exponent scale).step) = true) :
    RoundsTo (point * 10 ^ scale) mantissa exponent := by
  obtain ⟨unit, above, step, quarter⟩ := Grid.exists_unit exponent scale
  rw [Grid.readsBack_iff] at hits
  generalize Grid.at exponent scale = grid at *
  have lowest : ((4 * mantissa - quartersBelow mantissa exponent) * grid.quarter : Nat) * unit =
      (mantissa - if mantissa = leastNormal ∧ leastExponent < exponent then 1 / 4 else 1 / 2) *
        2 ^ exponent := by
    have enough : quartersBelow mantissa exponent ≤ 4 * mantissa := by
      unfold quartersBelow
      split <;> omega
    rw [Nat.cast_mul, mul_assoc, quarter, Nat.cast_sub enough, quartersBelow]
    split <;> push_cast <;> ring
  have highest : ((4 * mantissa + 2) * grid.quarter : Nat) * unit =
      (mantissa + 1 / 2) * 2 ^ exponent := by
    rw [Nat.cast_mul, mul_assoc, quarter]
    push_cast
    ring
  have value : ((point * grid.step : Nat) : ℚ) * unit = point * 10 ^ scale := by
    rw [Nat.cast_mul, mul_assoc, step]
  simp only [RoundsTo, ← lowest, ← highest, ← value]
  rcases hits with ⟨low, high⟩ | ⟨even, edge⟩
  · left
    constructor
    · gcongr
    · gcongr
  · right
    refine ⟨even, ?_⟩
    rcases edge with same | same
    · exact .inl (by rw [same])
    · exact .inr (by rw [same])

private theorem Grid.readsBack_of_pick {grid : Grid} {mantissa point : Nat} {exponent : Int}
    (picked : grid.pick mantissa exponent = some point) :
    grid.readsBack mantissa exponent (point * grid.step) = true := by
  simp only [Grid.pick] at picked
  split at picked
  · rename_i both
    simp only [Bool.and_eq_true] at both
    obtain ⟨low, high⟩ := both
    simp only [roundQuotient, Option.some.injEq] at picked
    subst picked
    split
    · exact low
    · split
      · exact high
      · split
        · exact low
        · exact high
  · split at picked
    · rename_i low
      obtain rfl := Option.some.inj picked
      exact low
    · split at picked
      · rename_i high
        obtain rfl := Option.some.inj picked
        exact high
      · simp at picked

private theorem Grid.isSome_pick {grid : Grid} {mantissa : Nat} {exponent : Int}
    (positive : 0 < mantissa) (some : 0 < grid.step)
    (fine : grid.step < (quartersBelow mantissa exponent + 2) * grid.quarter) :
    (grid.pick mantissa exponent).isSome = true := by
  have missed : ¬(grid.readsBack mantissa exponent
        (4 * mantissa * grid.quarter / grid.step * grid.step) = false ∧
      grid.readsBack mantissa exponent
        ((4 * mantissa * grid.quarter / grid.step + 1) * grid.step) = false) := by
    rintro ⟨low, high⟩
    rw [← Bool.not_eq_true, Grid.readsBack_iff] at low high
    have below : quartersBelow mantissa exponent ≤ 4 * mantissa := by
      unfold quartersBelow
      split <;> omega
    have interval : quartersBelow mantissa exponent * grid.quarter ≤ 4 * mantissa * grid.quarter :=
      Nat.mul_le_mul_right _ below
    have quarter : 0 < grid.quarter := Nat.pos_of_ne_zero fun none => by simp [none] at fine
    have atMost := Nat.div_mul_le_self (4 * mantissa * grid.quarter) grid.step
    have next := Nat.lt_div_mul_add some (a := 4 * mantissa * grid.quarter)
    rw [Nat.sub_mul, Nat.add_mul (4 * mantissa)] at low high
    rw [Nat.add_mul] at fine
    rw [Nat.add_mul, Nat.one_mul] at high
    -- both points lie outside the interval, and so on its two sides
    omega
  simp only [Grid.pick]
  split
  · rfl
  · split
    · rfl
    · split
      · rfl
      · simp_all

/-! ## Seventeen digits -/

private theorem Grid.fine {mantissa : Nat} {exponent leading : Int}
    (canonical : IsCanonical mantissa exponent)
    (first : (10 : ℚ) ^ leading ≤ mantissa * 2 ^ exponent) :
    (Grid.at exponent (leading - 16)).step <
      (quartersBelow mantissa exponent + 2) * (Grid.at exponent (leading - 16)).quarter := by
  obtain ⟨unit, above, step, quarter⟩ := Grid.exists_unit exponent (leading - 16)
  generalize Grid.at exponent (leading - 16) = grid at *
  have power : (0 : ℚ) < 2 ^ exponent := zpow_pos (by norm_num) _
  have inUnits : (grid.step : ℚ) * unit < (quartersBelow mantissa exponent + 2) * grid.quarter * unit := by
    rw [step, mul_assoc, quarter, zpow_sub₀ (by norm_num)]
    calc (10 : ℚ) ^ leading / 10 ^ (16 : Int)
        ≤ mantissa * 2 ^ exponent / 10 ^ (16 : Int) := by gcongr
      _ = mantissa / 10 ^ 16 * 2 ^ exponent := by
        rw [mul_div_right_comm]
        norm_cast
      _ < (quartersBelow mantissa exponent + 2) / 4 * 2 ^ exponent := by
        refine mul_lt_mul_of_pos_right ?_ power
        unfold quartersBelow
        split
        · rename_i narrow
          rw [narrow.1, leastNormal]
          norm_num
        · have small : (mantissa : ℚ) < 2 ^ 53 := by exact_mod_cast canonical.mantissa_lt
          rw [div_lt_iff₀ (by positivity)]
          norm_num at small ⊢
          linarith
      _ = (quartersBelow mantissa exponent + 2) * (2 ^ exponent / 4) := by ring
  have cleared := lt_of_mul_lt_mul_right inUnits above.le
  exact_mod_cast cleared

private theorem Grid.step_pos (exponent scale : Int) : 0 < (Grid.at exponent scale).step := by
  obtain ⟨unit, above, step, -⟩ := Grid.exists_unit exponent scale
  have power : (0 : ℚ) < 10 ^ scale := zpow_pos (by norm_num) _
  rw [← step] at power
  exact_mod_cast pos_of_mul_pos_left power above.le

/-- The shortest decimal of a positive float lies in the interval of the float. -/
theorem roundsTo_shortest {mantissa : Nat} {exponent : Int} (canonical : IsCanonical mantissa exponent)
    (positive : 0 < mantissa) : RoundsTo (shortest mantissa exponent).toRat mantissa exponent := by
  have value := fraction_div mantissa exponent
  simp only [shortest]
  generalize FloatForm.fraction mantissa exponent = fraction at *
  obtain ⟨numerator, denominator⟩ := fraction
  have exact : (0 : ℚ) < mantissa * 2 ^ exponent := by
    have some : (0 : ℚ) < mantissa := by exact_mod_cast positive
    exact mul_pos some (zpow_pos (by norm_num) _)
  have first : (10 : ℚ) ^ leadingExponent numerator denominator ≤ mantissa * 2 ^ exponent := by
    rw [← value] at exact ⊢
    refine pow_leadingExponent_le (Nat.pos_of_ne_zero ?_) (Nat.pos_of_ne_zero ?_)
    · rintro rfl
      simp at exact
    · rintro rfl
      simp at exact
  generalize leadingExponent numerator denominator = leading at *
  obtain ⟨point, picked⟩ := Option.isSome_iff_exists.mp
    (Grid.isSome_pick positive (Grid.step_pos exponent _) (Grid.fine canonical first))
  cases found : (List.range 17).findSome? fun digits : Nat =>
      ((Grid.at exponent (leading - digits)).pick mantissa exponent).map
        (Decimal.mk · (leading - digits)) with
  | none =>
    have nothing := List.findSome?_eq_none_iff.mp found 16 (by decide)
    simp [picked] at nothing
  | some d =>
    obtain ⟨digits, -, attempt⟩ := List.exists_of_findSome?_eq_some found
    obtain ⟨point, picked, rfl⟩ := Option.map_eq_some_iff.mp attempt
    exact Grid.roundsTo_of_readsBack positive (Grid.readsBack_of_pick picked)

end GraphQuery.Decimal
