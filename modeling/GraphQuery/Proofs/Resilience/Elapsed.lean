import GraphQuery.Proofs.Decimal.Arithmetic
import GraphQuery.Resilience.Breaker

/-! # Time that has passed

Times are floats, and so is the time between two of them. While a clock is not turned back, what
has passed once stays passed: differences and products of floats are rounded, but rounding keeps
their order.
-/

namespace GraphQuery

open FloatForm

/-- A clock shows a time before another one is not after it. -/
theorem FloatForm.le_trans {x y z : Float} (first : x ≤ y) (second : y ≤ z) : x ≤ z := by
  obtain ⟨p, atX, q, atY, le⟩ := le_iff.mp first
  obtain ⟨q', atY', r, atZ, le'⟩ := le_iff.mp second
  obtain rfl := Option.some.inj (atY.symm.trans atY')
  exact le_iff.mpr ⟨p, atX, r, atZ, le.trans le'⟩

private theorem place_cases (p : Place) : p = ⊥ ∨ (∃ q, p = .of q) ∨ p = ⊤ := by
  rcases p with _ | _ | q
  · exact .inl rfl
  · exact .inr (.inr rfl)
  · exact .inr (.inl ⟨q, rfl⟩)

section Differences

variable {start s : Float} {p : Place}

private theorem place?_sub_of_bot (first : (ofFloat start).place? = some ⊥)
    (at? : (ofFloat s).place? = some p) (above : p ≠ ⊥) : (ofFloat (s - start)).place? = some ⊤ := by
  have begun := infinite_of_place?_bot first
  rcases place_cases p with rfl | ⟨q, rfl⟩ | rfl
  · exact absurd rfl above
  · obtain ⟨n, m, e, read, -⟩ := finite_of_place? at?
    rw [ofFloat_sub_infinite read begun]
    rfl
  · rw [ofFloat_infinite_sub_infinite (infinite_of_place?_top at?) begun]
    rfl

private theorem place?_top_sub {q : ℚ} (first : (ofFloat start).place? = some (.of q))
    (at? : (ofFloat s).place? = some ⊤) : (ofFloat (s - start)).place? = some ⊤ := by
  obtain ⟨n, m, e, read, -⟩ := finite_of_place? first
  rw [ofFloat_infinite_sub (infinite_of_place?_top at?) read]
  rfl

private theorem place?_sub_self (first : (ofFloat start).place? = some p)
    (second : (ofFloat s).place? = some p) (infinite : p = ⊤ ∨ p = ⊥) : (ofFloat (s - start)).place? = none := by
  rcases infinite with rfl | rfl
  · rw [ofFloat_infinite_sub_infinite (infinite_of_place?_top second) (infinite_of_place?_top first)]
    rfl
  · rw [ofFloat_infinite_sub_infinite (infinite_of_place?_bot second) (infinite_of_place?_bot first)]
    rfl

end Differences

private theorem zero_le_reached {v : ℚ} (nonnegative : 0 ≤ v) : Place.of 0 ≤ reached (roundedValue v) := by
  have rounded := reached_mono (roundedValue_mono le_rfl nonnegative)
  rwa [roundedValue_zero, reached, if_pos reach_pos] at rounded

/-- A time after another one is a number. -/
theorem FloatForm.le_self_of_le {x y : Float} (le : x ≤ y) : y ≤ y := by
  obtain ⟨p, -, q, atY, -⟩ := le_iff.mp le
  exact le_iff.mpr ⟨q, atY, q, atY, le_rfl⟩

/-- A time before another one is a number. -/
theorem FloatForm.self_le_of_le {x y : Float} (le : x ≤ y) : x ≤ x := by
  obtain ⟨p, atX, -⟩ := le_iff.mp le
  exact le_iff.mpr ⟨p, atX, p, atX, le_rfl⟩

/-- A time that is a number and no infinity. -/
def FloatForm.IsFinite (x : Float) : Prop :=
  ∃ q, (ofFloat x).place? = some (.of q)

private theorem place?_sub_mono {start s t : Float} {p : Place} (begun : start ≤ s) (later : s ≤ t)
    (passed : (ofFloat (s - start)).place? = some p) :
    ∃ q, (ofFloat (t - start)).place? = some q ∧ Place.of 0 ≤ p ∧ p ≤ q := by
  obtain ⟨a, atStart, b, atS, le⟩ := le_iff.mp begun
  obtain ⟨b', atS', c, atT, le'⟩ := le_iff.mp later
  obtain rfl := Option.some.inj (atS.symm.trans atS')
  rcases place_cases a with rfl | ⟨q, rfl⟩ | rfl
  · have above : b ≠ ⊥ := by
      rintro rfl
      have none := place?_sub_self atStart atS (.inr rfl)
      exact absurd (passed.symm.trans none) (by simp)
    have stays : c ≠ ⊥ := fun low => above (le_bot_iff.mp (low ▸ le'))
    obtain rfl := Option.some.inj (passed.symm.trans (place?_sub_of_bot atStart atS above))
    exact ⟨⊤, place?_sub_of_bot atStart atT stays, le_top, le_rfl⟩
  · rcases place_cases b with rfl | ⟨r, rfl⟩ | rfl
    · exact absurd le Place.bot_lt_of.not_ge
    · have order := Place.of_le_of.mp le
      obtain rfl := Option.some.inj (passed.symm.trans (place?_sub atS atStart order))
      have nonnegative := zero_le_reached (sub_nonneg.mpr order)
      rcases place_cases c with rfl | ⟨u, rfl⟩ | rfl
      · exact absurd le' Place.bot_lt_of.not_ge
      · have order' := Place.of_le_of.mp le'
        refine ⟨_, place?_sub atT atStart (order.trans order'), nonnegative, ?_⟩
        exact reached_mono (roundedValue_mono (sub_nonneg.mpr order) (sub_le_sub_right order' q))
      · exact ⟨⊤, place?_top_sub atStart atT, nonnegative, le_top⟩
    · obtain rfl := top_le_iff.mp le'
      obtain rfl := Option.some.inj (passed.symm.trans (place?_top_sub atStart atS))
      exact ⟨⊤, place?_top_sub atStart atT, le_top, le_rfl⟩
  · obtain rfl := top_le_iff.mp le
    have none := place?_sub_self atStart atS (.inl rfl)
    exact absurd (passed.symm.trans none) (by simp)

private theorem ofFloat_thousand : ofFloat 1000 = finite false 8796093022208000 (-43) := by
  decide +kernel

private theorem place?_thousand : (ofFloat 1000).place? = some (.of 1000) := by
  rw [ofFloat_thousand, place?, value_false]
  norm_num

private theorem place?_top_scaled {x : Float} (at? : (ofFloat x).place? = some ⊤) :
    (ofFloat (x * 1000)).place? = some ⊤ := by
  rw [ofFloat_infinite_mul (infinite_of_place?_top at?) ofFloat_thousand (by decide)]
  rfl

private theorem place?_scaled_mono {x y : Float} {p q : Place} (atX : (ofFloat x).place? = some p)
    (atY : (ofFloat y).place? = some q) (nonnegative : Place.of 0 ≤ p) (le : p ≤ q) :
    ∃ r r', (ofFloat (x * 1000)).place? = some r ∧ (ofFloat (y * 1000)).place? = some r' ∧ r ≤ r' := by
  rcases place_cases p with rfl | ⟨a, rfl⟩ | rfl
  · exact absurd nonnegative Place.bot_lt_of.not_ge
  · have positive := Place.of_le_of.mp nonnegative
    rcases place_cases q with rfl | ⟨b, rfl⟩ | rfl
    · exact absurd le Place.bot_lt_of.not_ge
    · have order := Place.of_le_of.mp le
      refine ⟨_, _, place?_mul atX place?_thousand positive (by norm_num),
        place?_mul atY place?_thousand (positive.trans order) (by norm_num), ?_⟩
      exact reached_mono (roundedValue_mono (by positivity) (by gcongr))
    · exact ⟨_, ⊤, place?_mul atX place?_thousand positive (by norm_num), place?_top_scaled atY, le_top⟩
  · obtain rfl := top_le_iff.mp le
    exact ⟨⊤, ⊤, place?_top_scaled atX, place?_top_scaled atY, le_rfl⟩

/-- What has passed stays passed. -/
theorem hasPassed_mono {milliseconds : Number} {start s t : Float} (begun : start ≤ s) (later : s ≤ t)
    (passed : hasPassed milliseconds start s = true) : hasPassed milliseconds start t = true := by
  obtain ⟨r, atScaled, limit, atLimit, enough⟩ := Number.atLeast_iff.mp passed
  cases difference : (ofFloat (s - start)).place? with
  | none =>
    have scaled : (ofFloat ((s - start) * 1000)).place? = none := by
      rw [ofFloat_nan_mul (nan_of_place?_none difference) 1000]
      rfl
    exact absurd (atScaled.symm.trans scaled) (by simp)
  | some p =>
    obtain ⟨q, difference', nonnegative, le⟩ := place?_sub_mono begun later difference
    obtain ⟨r₀, r', scaled, scaled', le'⟩ := place?_scaled_mono difference difference' nonnegative le
    obtain rfl := Option.some.inj (scaled.symm.trans atScaled)
    exact Number.atLeast_iff.mpr ⟨r', scaled', limit, atLimit, enough.trans le'⟩

/-- Between numbers, what has not passed is less than what has to pass. -/
theorem hasPassed_eq_false_iff {milliseconds : Number} {start now : Float} {p q : Place}
    (elapsed : (ofFloat ((now - start) * 1000)).place? = some p) (limit : milliseconds.place? = some q) :
    hasPassed milliseconds start now = false ↔
      (Number.float ((now - start) * 1000)).less milliseconds = true := by
  have elapsedPlace : (Number.float ((now - start) * 1000)).place? = some p := elapsed
  rw [← Bool.not_eq_true, hasPassed, Number.atLeast_iff, Number.less_iff, elapsedPlace, limit]
  simp

/-- What is less than what has to pass has not passed. -/
theorem hasPassed_eq_false_of_less {milliseconds : Number} {start now : Float}
    (less : (Number.float ((now - start) * 1000)).less milliseconds = true) :
    hasPassed milliseconds start now = false := by
  obtain ⟨p, elapsed, q, limit, -⟩ := Number.less_iff.mp less
  exact (hasPassed_eq_false_iff elapsed limit).mpr less

private theorem exists_place?_elapsed {start now : Float} (begun : start ≤ now) (finite : IsFinite start) :
    ∃ p, (ofFloat ((now - start) * 1000)).place? = some p := by
  obtain ⟨q, atStart⟩ := finite
  obtain ⟨q', atStart', c, atNow, le⟩ := le_iff.mp begun
  obtain rfl := Option.some.inj (atStart.symm.trans atStart')
  rcases place_cases c with rfl | ⟨r, rfl⟩ | rfl
  · exact absurd le Place.bot_lt_of.not_ge
  · have order := Place.of_le_of.mp le
    have difference := place?_sub atNow atStart order
    have nonnegative := zero_le_reached (sub_nonneg.mpr order)
    obtain ⟨p, -, scaled, -⟩ := place?_scaled_mono difference difference nonnegative le_rfl
    exact ⟨p, scaled⟩
  · exact ⟨⊤, place?_top_scaled (place?_top_sub atStart atNow)⟩

/-- Since a finite time, a number of milliseconds has not passed exactly if less has. -/
theorem hasPassed_eq_false_iff_less {milliseconds : Number} {start now : Float} (begun : start ≤ now)
    (finite : IsFinite start) (isNumber : milliseconds.place? ≠ none) :
    hasPassed milliseconds start now = false ↔
      (Number.float ((now - start) * 1000)).less milliseconds = true := by
  obtain ⟨p, elapsed⟩ := exists_place?_elapsed begun finite
  obtain ⟨q, limit⟩ := Option.ne_none_iff_exists'.mp isNumber
  exact hasPassed_eq_false_iff elapsed limit

end GraphQuery
