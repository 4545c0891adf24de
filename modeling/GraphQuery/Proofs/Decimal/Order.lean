import GraphQuery.Number
import GraphQuery.Proofs.Decimal.Rounding

/-! # The order of numbers

Every integer, and every float that is a number, has a place among the fractions and the two
infinities. Comparing numbers is comparing their places: no precision is lost when an integer is
compared with a float.
-/

namespace GraphQuery

/-- The fractions with the two infinities. -/
abbrev Place : Type :=
  WithBot (WithTop ℚ)

namespace Place

def of (q : ℚ) : Place :=
  (q : WithTop ℚ)

variable {p q : ℚ}

@[simp] theorem of_lt_of : of p < of q ↔ p < q := by
  simp [of]

@[simp] theorem of_le_of : of p ≤ of q ↔ p ≤ q := by
  simp [of]

@[simp] theorem of_inj : of p = of q ↔ p = q := by
  simp [of]

@[simp] theorem of_lt_top : of q < ⊤ :=
  WithBot.coe_lt_coe.mpr (WithTop.coe_lt_top q)

@[simp] theorem bot_lt_of : ⊥ < of q :=
  WithBot.bot_lt_coe _

end Place

namespace FloatForm

open Float.Model (UnpackedFloat)
open Float.Model.UnpackedFloat

/-- The fraction that a mantissa and an exponent stand for. -/
def value (negative : Bool) (mantissa : Nat) (exponent : Int) : ℚ :=
  (if negative then -1 else 1) * (mantissa * 2 ^ exponent)

/-- The place of a float among the fractions and the infinities. What is not a number has none. -/
def place? : FloatForm → Option Place
  | nan => none
  | infinite negative => some (if negative then ⊥ else ⊤)
  | finite negative mantissa exponent => some (.of (value negative mantissa exponent))

/-- A reading with the mantissa and the exponent of a float. -/
def IsReading : FloatForm → Prop
  | finite _ mantissa exponent => IsCanonical mantissa exponent
  | _ => True

theorem isReading_ofFloat (x : Float) : (ofFloat x).IsReading := by
  cases read : ofFloat x with
  | finite negative mantissa exponent => exact isCanonical_of_ofFloat read
  | nan | infinite => trivial

/-! ## Floats -/

private theorem compare_congr {Left Right : Type} [LinearOrder Left] [LinearOrder Right] {a b : Left}
    {c d : Right} (less : a < b ↔ c < d) (more : b < a ↔ d < c) : compare a b = compare c d := by
  rcases lt_trichotomy a b with below | same | above
  · rw [compare_lt_iff_lt.mpr below, compare_lt_iff_lt.mpr (less.mp below)]
  · have equal : c = d :=
      le_antisymm (not_lt.mp (mt more.mpr same.not_gt)) (not_lt.mp (mt less.mpr same.not_lt))
    rw [compare_eq_iff_eq.mpr same, compare_eq_iff_eq.mpr equal]
  · rw [compare_gt_iff_gt.mpr above, compare_gt_iff_gt.mpr (more.mp above)]

private theorem lt_of_exponent_lt {m n : Nat} {d e : Int} (first : IsCanonical m d)
    (second : IsCanonical n e) (less : d < e) : (m * 2 ^ d : ℚ) < n * 2 ^ e := by
  have unit : (0 : ℚ) < 2 ^ d := zpow_pos (by norm_num) _
  have full : leastNormal ≤ n := second.normal (first.least_le.trans_lt less)
  have small : (m : ℚ) < (2 * leastNormal : ℕ) := by exact_mod_cast first.mantissa_lt
  calc (m * 2 ^ d : ℚ) < (2 * leastNormal : ℕ) * 2 ^ d := by gcongr
    _ = leastNormal * 2 ^ (d + 1) := by
      rw [zpow_add_one₀ (by norm_num)]
      push_cast
      ring
    _ ≤ n * 2 ^ e := by
      gcongr
      · norm_num
      · omega

private theorem compare_parts {m n : Nat} {d e : Int} (first : IsCanonical m d) (second : IsCanonical n e) :
    (compare d e).then (compare m n) = compare (m * 2 ^ d : ℚ) (n * 2 ^ e) := by
  rcases lt_trichotomy d e with less | rfl | more
  · rw [compare_lt_iff_lt.mpr less, compare_lt_iff_lt.mpr (lt_of_exponent_lt first second less)]
    rfl
  · have unit : (0 : ℚ) < 2 ^ d := zpow_pos (by norm_num) _
    rw [compare_eq_iff_eq.mpr rfl]
    change compare m n = _
    rcases lt_trichotomy m n with less | rfl | more
    · rw [compare_lt_iff_lt.mpr less, compare_lt_iff_lt.mpr]
      gcongr
    · rw [compare_eq_iff_eq.mpr rfl, compare_eq_iff_eq.mpr rfl]
    · rw [compare_gt_iff_gt.mpr more, compare_gt_iff_gt.mpr]
      gcongr
  · rw [compare_gt_iff_gt.mpr more, compare_gt_iff_gt.mpr (lt_of_exponent_lt second first more)]
    rfl

private theorem compare_of (p q : ℚ) :
    compare (Place.of p) (Place.of q) = compare p q :=
  compare_congr Place.of_lt_of Place.of_lt_of

theorem value_false (m : Nat) (e : Int) : value false m e = m * 2 ^ e := by
  simp [value]

theorem value_true (m : Nat) (e : Int) : value true m e = -(m * 2 ^ e) := by
  simp [value]

@[simp] theorem value_zero (negative : Bool) (e : Int) : value negative 0 e = 0 := by
  simp [value]

theorem value_pos {m : Nat} (positive : 0 < m) (e : Int) : 0 < value false m e := by
  rw [value_false]
  positivity

theorem value_neg {m : Nat} (positive : 0 < m) (e : Int) : value true m e < 0 := by
  rw [value_true, neg_lt_zero]
  positivity

private theorem compare_neg_neg (p q : ℚ) : compare (-p) (-q) = (compare p q).swap := by
  rw [← Std.OrientedCmp.eq_swap]
  exact compare_congr neg_lt_neg_iff neg_lt_neg_iff

private theorem compare_finite {n k : Bool} {m l : Nat} {d e : Int} (first : IsCanonical m d)
    (second : IsCanonical l e) :
    (finite n m d).unpacked.compare (finite k l e).unpacked =
      some (compare (value n m d) (value k l e)) := by
  rcases Nat.eq_zero_or_pos m with rfl | mPos <;> rcases Nat.eq_zero_or_pos l with rfl | lPos
  · rw [value_zero, value_zero, compare_eq_iff_eq.mpr rfl]
    rfl
  · rw [unpacked_finite _ _ lPos, value_zero]
    cases k
    · rw [compare_lt_iff_lt.mpr (value_pos lPos e)]
      rfl
    · rw [compare_gt_iff_gt.mpr (value_neg lPos e)]
      rfl
  · rw [unpacked_finite _ _ mPos, value_zero]
    cases n
    · rw [compare_gt_iff_gt.mpr (value_pos mPos d)]
      rfl
    · rw [compare_lt_iff_lt.mpr (value_neg mPos d)]
      rfl
  · rw [unpacked_finite _ _ mPos, unpacked_finite _ _ lPos]
    cases n <;> cases k
    · rw [value_false, value_false, ← compare_parts first second]
      rfl
    · rw [compare_gt_iff_gt.mpr ((value_neg lPos e).trans (value_pos mPos d))]
      rfl
    · rw [compare_lt_iff_lt.mpr ((value_neg mPos d).trans (value_pos lPos e))]
      rfl
    · rw [value_true, value_true, compare_neg_neg, ← compare_parts first second]
      rfl

theorem unpacked_finite_cases (n : Bool) (m : Nat) (e : Int) :
    (∃ positive, (finite n m e).unpacked = .finite (sign n) m e positive) ∨
      (finite n m e).unpacked = .zero (sign n) := by
  rcases Nat.eq_zero_or_pos m with rfl | positive
  · exact .inr rfl
  · exact .inl ⟨positive, unpacked_finite n e positive⟩

/-- The floats of two readings are compared by their places. -/
theorem compare_unpacked {f g : FloatForm} (first : f.IsReading) (second : g.IsReading) :
    f.unpacked.compare g.unpacked = f.place?.bind fun p => g.place?.map fun q => compare p q := by
  cases f with
  | nan => rfl
  | infinite n =>
    cases g with
    | nan => cases n <;> rfl
    | infinite k =>
      cases n <;> cases k
      · exact congrArg some (compare_eq_iff_eq.mpr rfl).symm
      · exact congrArg some (compare_gt_iff_gt.mpr bot_lt_top).symm
      · exact congrArg some (compare_lt_iff_lt.mpr bot_lt_top).symm
      · exact congrArg some (compare_eq_iff_eq.mpr rfl).symm
    | finite k l e =>
      obtain ⟨positive, parts⟩ | parts := unpacked_finite_cases k l e <;> rw [parts] <;> cases n
      · exact congrArg some (compare_gt_iff_gt.mpr Place.of_lt_top).symm
      · exact congrArg some (compare_lt_iff_lt.mpr Place.bot_lt_of).symm
      · exact congrArg some (compare_gt_iff_gt.mpr Place.of_lt_top).symm
      · exact congrArg some (compare_lt_iff_lt.mpr Place.bot_lt_of).symm
  | finite n m d =>
    cases g with
    | nan => obtain ⟨positive, parts⟩ | parts := unpacked_finite_cases n m d <;> rw [parts] <;> rfl
    | infinite k =>
      obtain ⟨positive, parts⟩ | parts := unpacked_finite_cases n m d <;> rw [parts] <;> cases k
      · exact congrArg some (compare_lt_iff_lt.mpr Place.of_lt_top).symm
      · exact congrArg some (compare_gt_iff_gt.mpr Place.bot_lt_of).symm
      · exact congrArg some (compare_lt_iff_lt.mpr Place.of_lt_top).symm
      · exact congrArg some (compare_gt_iff_gt.mpr Place.bot_lt_of).symm
    | finite k l e =>
      rw [compare_finite first second]
      exact congrArg some (compare_of _ _).symm

/-- Floats are compared by their places. -/
theorem compare_eq (x y : Float) :
    x.toModel.unpack.compare y.toModel.unpack =
      (ofFloat x).place?.bind fun p => (ofFloat y).place?.map fun q => compare p q := by
  rw [unpack_eq, unpack_eq, compare_unpacked (isReading_ofFloat x) (isReading_ofFloat y)]

theorem lt_iff {x y : Float} : x < y ↔
    ∃ p ∈ (ofFloat x).place?, ∃ q ∈ (ofFloat y).place?, p < q := by
  have parts : x < y ↔ (x.toModel.unpack.compare y.toModel.unpack == some .lt) = true :=
    decide_eq_true_iff
  rw [parts, compare_eq, beq_iff_eq, Option.bind_eq_some_iff]
  simp only [Option.map_eq_some_iff, compare_lt_iff_lt]
  rfl

theorem beq_iff {x y : Float} : (x == y) = true ↔
    ∃ p ∈ (ofFloat x).place?, ∃ q ∈ (ofFloat y).place?, p = q := by
  change (x.toModel.unpack.compare y.toModel.unpack == some .eq) = true ↔ _
  rw [compare_eq, beq_iff_eq, Option.bind_eq_some_iff]
  simp only [Option.map_eq_some_iff, compare_eq_iff_eq]
  rfl

theorem le_iff {x y : Float} : x ≤ y ↔
    ∃ p ∈ (ofFloat x).place?, ∃ q ∈ (ofFloat y).place?, p ≤ q := by
  have parts : x ≤ y ↔ (x.toModel.unpack.compare y.toModel.unpack).any Ordering.isLE = true :=
    decide_eq_true_iff
  rw [parts, compare_eq, Option.any_eq_true]
  simp only [Option.bind_eq_some_iff, Option.map_eq_some_iff]
  constructor
  · rintro ⟨_, ⟨p, first, q, second, rfl⟩, le⟩
    exact ⟨p, first, q, second, compare_le_iff_le.mp (Ordering.isLE_iff_ne_gt.mp le)⟩
  · rintro ⟨p, first, q, second, le⟩
    exact ⟨_, ⟨p, first, q, second, rfl⟩, Ordering.isLE_iff_ne_gt.mpr (compare_le_iff_le.mpr le)⟩

/-! ## Integers and floats -/

private theorem value_mul_denominator (n : Bool) (m : Nat) (e : Int) :
    value n m e * (fraction m e).2 = (Decimal.withSign n (fraction m e).1 : ℤ) := by
  have scaled : ((2 : ℚ) ^ e) * ((2 : ℚ) ^ (-e).toNat) = 2 ^ e.toNat := by
    rw [← zpow_natCast, ← zpow_natCast, ← zpow_add₀ (by norm_num)]
    congr 1
    omega
  have numerator : (m * 2 ^ e : ℚ) * (2 : ℚ) ^ (-e).toNat = m * 2 ^ e.toNat := by
    rw [mul_assoc, scaled]
  cases n
  · rw [value_false]
    simp only [fraction, Decimal.withSign, Nat.pow_eq]
    push_cast
    exact numerator
  · rw [value_true]
    simp only [fraction, Decimal.withSign, Nat.pow_eq]
    push_cast
    rw [neg_mul, numerator]

theorem compareInt_eq (i : Int) (f : FloatForm) :
    f.compareInt i =
      f.place?.map fun q => compare (Place.of i) q := by
  cases f with
  | nan => rfl
  | infinite n =>
    cases n
    · exact congrArg some (compare_lt_iff_lt.mpr Place.of_lt_top).symm
    · exact congrArg some (compare_gt_iff_gt.mpr Place.bot_lt_of).symm
  | finite n m e =>
    have denominator : (0 : ℚ) < (fraction m e).2 := by
      simp only [fraction, Nat.pow_eq]
      positivity
    refine congrArg some (Eq.trans ?_ (compare_of _ _).symm)
    apply compare_congr
    · rw [← mul_lt_mul_iff_left₀ denominator, value_mul_denominator]
      norm_cast
    · rw [← mul_lt_mul_iff_left₀ denominator, value_mul_denominator]
      norm_cast

end FloatForm

namespace Number

/-- The place of a number among the fractions and the infinities. -/
def place? : Number → Option Place
  | .int i => some (.of i)
  | .float x => (FloatForm.ofFloat x).place?

/-- Numbers are compared by their places. -/
theorem compare?_eq (a b : Number) :
    compare? a b = a.place?.bind fun p => b.place?.map fun q => compare p q := by
  cases a with
  | int i =>
    cases b with
    | int j =>
      refine congrArg some (Eq.trans ?_ (FloatForm.compare_of _ _).symm)
      exact FloatForm.compare_congr (by norm_cast) (by norm_cast)
    | float y => exact FloatForm.compareInt_eq i _
  | float x =>
    cases b with
    | int j =>
      simp only [compare?, FloatForm.compareInt_eq, place?]
      cases (FloatForm.ofFloat x).place? with
      | none => rfl
      | some p => exact congrArg some Std.OrientedCmp.eq_swap.symm
    | float y =>
      simp only [compare?, FloatForm.lt_iff, FloatForm.beq_iff, place?]
      cases (FloatForm.ofFloat x).place? with
      | none => simp
      | some p =>
        cases (FloatForm.ofFloat y).place? with
        | none => simp
        | some q =>
          rcases lt_trichotomy p q with less | rfl | more
          · simp [less, compare_lt_iff_lt.mpr less]
          · simp
          · simp [more, more.not_gt, more.ne, compare_gt_iff_gt.mpr more]

theorem compare?_swap (a b : Number) : (a.compare? b).map Ordering.swap = b.compare? a := by
  simp only [compare?_eq]
  cases a.place? with
  | none => cases b.place? <;> rfl
  | some p =>
    cases b.place? with
    | none => rfl
    | some q => exact congrArg some Std.OrientedCmp.eq_swap.symm

theorem less_iff {a b : Number} : a.less b = true ↔ ∃ p ∈ a.place?, ∃ q ∈ b.place?, p < q := by
  simp only [less, compare?_eq, beq_iff_eq, Option.bind_eq_some_iff, Option.map_eq_some_iff,
    compare_lt_iff_lt, Option.mem_def]

theorem atLeast_iff {a b : Number} :
    a.atLeast b = true ↔ ∃ p ∈ a.place?, ∃ q ∈ b.place?, q ≤ p := by
  simp only [atLeast, compare?_eq, Bool.or_eq_true, beq_iff_eq, Option.bind_eq_some_iff,
    Option.map_eq_some_iff, compare_gt_iff_gt, compare_eq_iff_eq, Option.mem_def]
  constructor
  · rintro (⟨p, first, q, second, more⟩ | ⟨p, first, q, second, same⟩)
    · exact ⟨p, first, q, second, more.le⟩
    · exact ⟨p, first, q, second, same.ge⟩
  · rintro ⟨p, first, q, second, le⟩
    rcases le.lt_or_eq with more | same
    · exact .inl ⟨p, first, q, second, more⟩
    · exact .inr ⟨p, first, q, second, same.symm⟩

end Number

end GraphQuery
