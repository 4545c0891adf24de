import GraphQuery.Proofs.Decimal.Whole
import GraphQuery.Proofs.Metrics.Window

/-! # Percentiles

A percentile is the latency at a share of the window, rounded up. The percentage is divided by one
hundred before it is multiplied by the number of samples, and both results are rounded to floats. So
the product may come out above an integer that the exact one is equal to, and then the latency of
the next rank is answered. `isNearestRank_percentile_iff` says when percentiles are exact, and
`keepsRank_iff_of_whole` which whole percentages are.
-/

namespace GraphQuery.LatencyTracker

open FloatForm

/-! ## Ranks of percentages -/

/-- The least integer that is not below a percentage of a number of samples. -/
def nearestRank (p : ℚ) (n : ℕ) : ℕ :=
  ⌈p * n / 100⌉₊

/-- A percentage of a number of samples in floats. -/
def floatShare (p : ℚ) (n : ℕ) : ℚ :=
  roundedValue (roundedValue (p / 100) * roundedValue n)

/-- Whether the rank of a percentage among a number of samples is computed as it is, once it is
limited to the ranks that there are. -/
structure KeepsRank (p : ℚ) (n : ℕ) : Prop where
  /-- The number of samples has a float. -/
  within : roundedValue n < reach
  /-- The places of the two ranks are the same. -/
  same : min (⌈floatShare p n⌉₊ - 1) (n - 1) = nearestRank p n - 1

theorem nearestRank_pos {p : ℚ} {n : ℕ} (positive : 0 < p) (some : 0 < n) : 0 < nearestRank p n := by
  apply Nat.ceil_pos.mpr
  positivity

theorem nearestRank_le {p : ℚ} (most : p ≤ 100) (n : ℕ) : nearestRank p n ≤ n := by
  apply Nat.ceil_le.mpr
  have scaled := mul_le_mul_of_nonneg_right most (n.cast_nonneg : (0 : ℚ) ≤ n)
  linarith

theorem floatShare_le {p : ℚ} (nonnegative : 0 ≤ p) (most : p ≤ 100) (n : ℕ) :
    floatShare p n ≤ roundedValue n := by
  have hundredth : 0 ≤ roundedValue (p / 100) := roundedValue_nonneg (by positivity)
  have small : roundedValue (p / 100) ≤ 1 := roundedValue_le_one (by positivity) (by linarith)
  have samples : 0 ≤ roundedValue n := roundedValue_nonneg n.cast_nonneg
  rw [← roundedValue_roundedValue n.cast_nonneg]
  exact roundedValue_mono (mul_nonneg hundredth samples) (mul_le_of_le_one_left samples small)

theorem keepsRank_zero (p : ℚ) : KeepsRank p 0 where
  within := by
    rw [Nat.cast_zero, roundedValue_zero]
    exact reach_pos
  same := by
    rw [nearestRank, Nat.cast_zero, mul_zero, zero_div, Nat.ceil_zero]
    exact Nat.min_zero _

section Rank

variable {share : Number} {p : ℚ} {n : ℕ} (at? : share.place? = some (.of p)) (positive : 0 < p)
  (most : p ≤ 100)

include at? positive most

theorem rank_eq (within : roundedValue n < reach) : rank share n = .ok ⌈floatShare p n⌉₊ := by
  obtain ⟨x, hundredth, atX⟩ := Number.exists_hundredth at? positive most
  obtain ⟨y, whole, atY⟩ := Number.exists_toFloat?_natCast within
  have nonnegative : 0 ≤ roundedValue (p / 100) := roundedValue_nonneg (by positivity)
  have nonnegative' : 0 ≤ roundedValue n := roundedValue_nonneg n.cast_nonneg
  have below : floatShare p n < reach := (floatShare_le positive.le most n).trans_lt within
  have product : (ofFloat (x * y)).place? = some (reached (floatShare p n)) :=
    place?_mul atX atY nonnegative nonnegative'
  rw [reached, if_pos below] at product
  obtain ⟨negative, mantissa, exponent, read, value⟩ := finite_of_place? product
  simp only [rank, hundredth, whole, read, roundUp_eq_ceil, value]
  rw [Int.natCast_ceil_eq_ceil]
  exact roundedValue_nonneg (mul_nonneg nonnegative nonnegative')

theorem rank_of_beyond (beyond : ¬roundedValue n < reach) :
    rank share n = .error .tooLargeForFloat := by
  obtain ⟨x, hundredth, -⟩ := Number.exists_hundredth at? positive most
  simp only [rank, hundredth, Number.toFloat?_natCast_eq_none beyond]

end Rank

/-! ## Percentiles of windows -/

/-- What a percentile has to be: zero if there are no samples, else the sample whose rank is the
percentage of their number, rounded up. -/
def IsNearestRank (p : ℚ) (samples : List Number) (answer : Except Fault Number) : Prop :=
  ∃ latency, answer = .ok latency ∧
    if samples = [] then latency = .int 0 else HasRank latency (nearestRank p samples.length) samples

section Percentile

variable {tracker : LatencyTracker} {share : Number} {p : ℚ} (at? : share.place? = some (.of p))
  (positive : 0 < p) (most : p ≤ 100)

include at? positive most

theorem percentile_eq (some : tracker.samples ≠ []) (within : roundedValue tracker.size < reach) :
    tracker.percentile share =
      .ok (tracker.ranked.getD (min (⌈floatShare p tracker.size⌉₊ - 1) (tracker.size - 1)) (.int 0)) := by
  have index (rank : ℕ) : ((rank : ℤ) - 1).toNat = rank - 1 := by omega
  unfold percentile
  rw [if_neg (by simpa using some), rank_eq at? positive most within]
  simp only [Except.map, index]

theorem isNearestRank_percentile (numbers : ∀ latency ∈ tracker.samples, latency.place?.isSome)
    (keeps : KeepsRank p tracker.size) : IsNearestRank p tracker.samples (tracker.percentile share) := by
  by_cases none : tracker.samples = []
  · refine ⟨.int 0, ?_, ?_⟩
    · rw [percentile, none]
      rfl
    · rw [if_pos none]
  · have size : 0 < tracker.size := List.length_pos_iff.mpr none
    have rank := nearestRank_pos positive size
    have inner : nearestRank p tracker.size - 1 < tracker.size := by
      rw [← keeps.same]
      omega
    have ranked := hasRank_ranked numbers inner
    rw [Nat.sub_add_cancel rank] at ranked
    refine ⟨_, percentile_eq at? positive most none keeps.within, ?_⟩
    rw [if_neg none, keeps.same]
    exact ranked

/-- Among different samples only the exact rank will do. -/
theorem keepsRank_of_isNearestRank (numbers : ∀ latency ∈ tracker.samples, latency.place?.isSome)
    (distinct : (tracker.samples.map position).Nodup)
    (exact : IsNearestRank p tracker.samples (tracker.percentile share)) :
    KeepsRank p tracker.size := by
  obtain ⟨latency, answer, ranked⟩ := exact
  by_cases none : tracker.samples = []
  · rw [size, none, List.length_nil]
    exact keepsRank_zero p
  rw [if_neg none] at ranked
  have size : 0 < tracker.size := List.length_pos_iff.mpr none
  have within : roundedValue tracker.size < reach := by
    by_contra beyond
    rw [percentile, if_neg (by simpa using none), rank_of_beyond at? positive most beyond] at answer
    cases answer
  refine ⟨within, ?_⟩
  rw [percentile_eq at? positive most none within] at answer
  obtain rfl := Except.ok.inj answer
  have inner : min (⌈floatShare p tracker.size⌉₊ - 1) (tracker.size - 1) < tracker.size := by omega
  have computed := hasRank_ranked numbers inner
  have same := computed.unique numbers distinct ranked
  change _ + 1 = nearestRank p tracker.size at same
  omega

end Percentile

def counting (n : ℕ) : List Number :=
  (List.range n).map fun (i : ℕ) => .int (i + 1)

private theorem length_counting (n : ℕ) : (counting n).length = n := by
  rw [counting, List.length_map, List.length_range]

private theorem nodup_position_counting (n : ℕ) : ((counting n).map position).Nodup := by
  rw [counting, List.map_map]
  refine List.Nodup.map ?_ List.nodup_range
  intro i j same
  have places : Place.of (i + 1 : ℤ) = Place.of (j + 1 : ℤ) := same
  simpa using places

private theorem areNumbers_counting (n : ℕ) : AreNumbers ((counting n).map .record) := by
  intro latency member
  obtain ⟨other, found, same⟩ := List.mem_map.mp member
  obtain ⟨i, -, rfl⟩ := List.mem_map.mp found
  obtain rfl := Operation.record.inj same
  rfl

private theorem newest_counting {capacity : ℤ} {n : ℕ} (fits : n ≤ capacity) :
    newest capacity.toNat (recorded ((counting n).map .record)) = counting n := by
  rw [recorded_map_record, newest, length_counting, Nat.sub_eq_zero_of_le (by omega), List.drop_zero]

section Window

variable {capacity : ℤ} {tracker : LatencyTracker} (created : create capacity = .ok tracker)

include created

private theorem isSome_place?_of_mem_samples {operations : List Operation} (numbers : AreNumbers operations) :
    ∀ latency ∈ (afterAll tracker operations).samples, latency.place?.isSome := by
  intro latency member
  rw [samples_afterAll created] at member
  exact numbers.isSome_place? member

variable {share : Number} {p : ℚ} (at? : share.place? = some (.of p)) (positive : 0 < p) (most : p ≤ 100)
  {n : ℕ} (fits : n ≤ capacity)

include at? positive most fits

/-- The numbers from one on tell whether the rank of a percentage is computed as it is. -/
theorem keepsRank_of_counting
    (exact : IsNearestRank p (newest capacity.toNat (recorded ((counting n).map .record)))
      ((afterAll tracker ((counting n).map .record)).percentile share)) : KeepsRank p n := by
  have samples := samples_afterAll created ((counting n).map .record)
  have numbers := isSome_place?_of_mem_samples created (areNumbers_counting n)
  rw [← samples] at exact
  rw [newest_counting fits] at samples
  have distinct : ((afterAll tracker ((counting n).map .record)).samples.map position).Nodup := by
    rw [samples]
    exact nodup_position_counting n
  have keeps := keepsRank_of_isNearestRank at? positive most numbers distinct exact
  rwa [size, samples, length_counting] at keeps

/-- In every window with a number of samples, whatever was recorded and reset, percentiles are those of
the nearest rank, if and only if the rank of the percentage is computed as it is. -/
theorem isNearestRank_percentile_iff :
    (∀ operations, AreNumbers operations →
        (newest capacity.toNat (recorded operations)).length = n →
        IsNearestRank p (newest capacity.toNat (recorded operations))
          ((afterAll tracker operations).percentile share)) ↔
      KeepsRank p n := by
  constructor
  · intro exact
    apply keepsRank_of_counting created at? positive most fits
    apply exact _ (areNumbers_counting n)
    rw [newest_counting fits, length_counting]
  · intro keeps operations numbers length
    have kept := isSome_place?_of_mem_samples created numbers
    rw [← samples_afterAll created] at length ⊢
    apply isNearestRank_percentile at? positive most kept
    rwa [size, length]

end Window

theorem isNearestRank_percentile_iff_seven :
    create 100 = .ok ⟨100, []⟩ ∧ (Number.int 7).place? = some (.of 7) ∧ (0 : ℚ) < 7 ∧ (7 : ℚ) ≤ 100 ∧
      ((99 : ℕ) : ℤ) ≤ 100 ∧ KeepsRank 7 99 ∧
      ∀ operations, AreNumbers operations → (newest 100 (recorded operations)).length = 99 →
        IsNearestRank 7 (newest 100 (recorded operations))
          ((afterAll ⟨100, []⟩ operations).percentile (.int 7)) := by
  have created : create 100 = .ok ⟨100, []⟩ := rfl
  have at? : (Number.int 7).place? = some (.of 7) := rfl
  have positive : (0 : ℚ) < 7 := by norm_num
  have most : (7 : ℚ) ≤ 100 := by norm_num
  have fits : ((99 : ℕ) : ℤ) ≤ 100 := by norm_num
  have keeps : KeepsRank 7 99 := ⟨by decide +kernel, by decide +kernel⟩
  refine ⟨created, at?, positive, most, fits, keeps, ?_⟩
  exact (isNearestRank_percentile_iff created at? positive most fits).mpr keeps

/-- Seven percent of one hundred samples come out above seven in floats. -/
theorem not_isNearestRank_counting :
    ¬IsNearestRank 7 (newest 100 (recorded ((counting 100).map .record)))
      ((afterAll ⟨100, []⟩ ((counting 100).map .record)).percentile (.int 7)) := by
  intro exact
  have created : create 100 = .ok ⟨100, []⟩ := rfl
  have keeps : KeepsRank 7 100 :=
    keepsRank_of_counting created rfl (by norm_num) (by norm_num) (by norm_num) exact
  have same := keeps.same
  revert same
  decide +kernel

/-! ## Whole percentages -/

/-- The most samples for which the float of a percentage is near enough to the exact one. -/
def mostSamples : ℕ := 2 ^ 45

section Whole

variable {percentage n : ℕ} (least : 0 < percentage) (most : percentage ≤ 100) (fits : n ≤ mostSamples)

include fits

private theorem roundedValue_samples : roundedValue n = n :=
  roundedValue_natCast (fits.trans_lt (by decide))

include most

private theorem lt_floatShare {rank : ℕ} (above : rank * 100 < percentage * n) :
    rank < floatShare percentage n := by
  have fine : n * 2 ^ 8 ≤ 2 * leastNormal := (Nat.mul_le_mul_right _ fits).trans (by decide)
  have less := lt_roundedValue_mul most (by norm_num : 2 * 100 ≤ 2 ^ 8) fine above
  unfold floatShare
  rwa [roundedValue_samples fits]

include least

/-- The rank of a whole percentage is computed as it is, unless its float comes out above it. -/
theorem keepsRank_iff_of_whole :
    KeepsRank percentage n ↔ floatShare percentage n ≤ nearestRank percentage n := by
  rcases Nat.eq_zero_or_pos n with rfl | some
  · refine iff_of_true (keepsRank_zero _) ?_
    rw [floatShare, Nat.cast_zero, roundedValue_zero, mul_zero, roundedValue_zero]
    exact Nat.cast_nonneg _
  have share : (percentage : ℚ) ≤ 100 := by exact_mod_cast most
  have rankPos : 0 < nearestRank percentage n := nearestRank_pos (by exact_mod_cast least) some
  have rankLe : nearestRank percentage n ≤ n := nearestRank_le share n
  have floatLe : floatShare percentage n ≤ n := by
    rw [← roundedValue_samples fits]
    exact floatShare_le (by positivity) share n
  -- the float is never so far below that an earlier rank comes out
  have enough : nearestRank percentage n ≤ ⌈floatShare percentage n⌉₊ := by
    have before : ((nearestRank percentage n - 1 : ℕ) : ℚ) < percentage * n / 100 :=
      Nat.lt_ceil.mp (Nat.sub_lt rankPos one_pos)
    have whole : (nearestRank percentage n - 1) * 100 < percentage * n := by
      rw [lt_div_iff₀ (by norm_num)] at before
      exact_mod_cast before
    have less := Nat.lt_ceil.mpr (lt_floatShare most fits whole)
    omega
  constructor
  · intro keeps
    rcases rankLe.lt_or_eq with inner | last
    · have same := keeps.same
      have exact : ⌈floatShare percentage n⌉₊ = nearestRank percentage n := by omega
      rw [← exact]
      exact Nat.le_ceil _
    · rwa [last]
  · intro le
    refine ⟨?_, ?_⟩
    · rw [roundedValue_samples fits]
      exact natCast_lt_reach (fits.trans_lt (by decide))
    · have atMost : ⌈floatShare percentage n⌉₊ ≤ nearestRank percentage n := Nat.ceil_le.mpr le
      omega

/-- That cannot be if the hundredth of the percentage is not rounded up. -/
theorem keepsRank_of_roundsDown (down : roundedValue (percentage / 100) ≤ percentage / 100) :
    KeepsRank percentage n := by
  rw [keepsRank_iff_of_whole least most fits]
  have share : (percentage : ℚ) ≤ 100 := by exact_mod_cast most
  have rankLe : nearestRank percentage n ≤ n := nearestRank_le share n
  have above : (percentage * n / 100 : ℚ) ≤ nearestRank percentage n := Nat.le_ceil _
  unfold floatShare
  rw [roundedValue_samples fits]
  apply roundedValue_le_natCast ((rankLe.trans fits).trans_lt (by decide))
  · exact mul_nonneg (roundedValue_nonneg (by positivity)) n.cast_nonneg
  · have scaled := mul_le_mul_of_nonneg_right down n.cast_nonneg
    linarith

end Whole

/-- The three percentiles that are reported are those of the nearest ranks. -/
theorem stats_isNearestRank {tracker : LatencyTracker}
    (numbers : ∀ latency ∈ tracker.samples, latency.place?.isSome) (fits : tracker.size ≤ mostSamples) :
    ∃ median high highest,
      tracker.stats =
        .ok [("p50", median), ("p95", high), ("p99", highest), ("count", .int tracker.size)] ∧
      IsNearestRank 50 tracker.samples (.ok median) ∧ IsNearestRank 95 tracker.samples (.ok high) ∧
      IsNearestRank 99 tracker.samples (.ok highest) := by
  have reported (percentage : ℕ) (least : 0 < percentage) (most : percentage ≤ 100)
      (down : roundedValue (percentage / 100) ≤ percentage / 100) :
      IsNearestRank percentage tracker.samples (tracker.percentile (.int percentage)) := by
    apply isNearestRank_percentile rfl (by exact_mod_cast least) (by exact_mod_cast most) numbers
    exact keepsRank_of_roundsDown least most fits down
  obtain ⟨median, answer, isMedian⟩ :=
    reported 50 (by norm_num) (by norm_num) (by decide +kernel)
  obtain ⟨high, answer', isHigh⟩ :=
    reported 95 (by norm_num) (by norm_num) (by decide +kernel)
  obtain ⟨highest, answer'', isHighest⟩ :=
    reported 99 (by norm_num) (by norm_num) (by decide +kernel)
  rw [Nat.cast_ofNat] at answer answer' answer'' isMedian isHigh isHighest
  refine ⟨median, high, highest, ?_, ⟨median, rfl, isMedian⟩, ⟨high, rfl, isHigh⟩, ⟨highest, rfl, isHighest⟩⟩
  rw [stats, answer, answer', answer'']
  rfl

end GraphQuery.LatencyTracker
