import GraphQuery.CommandLine.Run
import GraphQuery.Proofs.Decimal.Whole
import GraphQuery.Proofs.Plan.Comparison
import GraphQuery.Proofs.Plan.History

/-! # Verdicts on drift

A report flags more changes than a threshold allows. The share of changed plans is divided out,
rounded and multiplied by one hundred, so that a share that is equal to the threshold may come out
above it; `detect_isExact_iff` says that this is the only way in which a verdict is not exact, and
that it concerns five thresholds.
-/

namespace GraphQuery

namespace DriftReport

open FloatForm

/-- A share in percent in floats. -/
def floatPercent (changed total : ℕ) : ℚ :=
  roundedValue (roundedValue (changed / total) * 100)

/-- The whole percentages that come out too large if they are divided by one hundred and multiplied by
it again. -/
def inflated : List ℕ :=
  [7, 14, 28, 55, 56]

/-- The most queries for which the float of a share is near enough to the exact one. -/
def mostQueries : ℕ := 2 ^ 45

/-! ## Shares in floats -/

private theorem lt_inflated_iff {percentage : ℕ} (most : percentage ≤ 100) :
    (percentage : ℚ) < roundedValue (roundedValue (percentage / 100) * 100) ↔ percentage ∈ inflated := by
  have all : ∀ percentage : ℕ, percentage < 101 →
      ((percentage : ℚ) < roundedValue (roundedValue (percentage / 100) * 100) ↔ percentage ∈ inflated) := by
    decide +kernel
  exact all percentage (by omega)

section Share

variable {changed total : ℕ} (part : changed ≤ total) (some : 0 < total)

include part some

private theorem roundedValue_share_le_one : roundedValue (changed / total) ≤ 1 := by
  apply roundedValue_le_one (by positivity)
  rw [div_le_one (Nat.cast_pos.mpr some)]
  exact Nat.cast_le.mpr part

private theorem floatPercent_le : floatPercent changed total ≤ (100 : ℕ) := by
  have share := roundedValue_share_le_one part some
  apply roundedValue_le_natCast (by decide)
  · exact mul_nonneg (roundedValue_nonneg (by positivity)) (by norm_num)
  · push_cast
    linarith

/-- A share in floats is above a percentage if the exact one is, or if they are equal and the percentage
comes out too large. -/
theorem lt_floatPercent_iff (fits : total ≤ mostQueries) (percentage : ℕ) :
    percentage < floatPercent changed total ↔
      percentage * total < 100 * changed ∨
        percentage * total = 100 * changed ∧ percentage ∈ inflated := by
  have coarse : 2 * total ≤ 2 ^ 46 := by
    have doubled : 2 * total ≤ 2 * mostQueries := Nat.mul_le_mul_left 2 fits
    exact doubled.trans (by decide)
  have fine : 100 * 2 ^ 46 ≤ 2 * leastNormal := by decide
  rcases lt_trichotomy (percentage * total) (100 * changed) with less | same | more
  · have above := lt_roundedValue_mul part coarse fine (less.trans_eq (mul_comm 100 changed))
    exact iff_of_true above (.inl less)
  · have most : percentage ≤ 100 := by
      have scaled : percentage * total ≤ 100 * total := same.le.trans (Nat.mul_le_mul_left 100 part)
      exact Nat.le_of_mul_le_mul_right scaled some
    have share : (changed / total : ℚ) = percentage / 100 := by
      have cast : (percentage * total : ℚ) = 100 * changed := by exact_mod_cast same
      rw [div_eq_div_iff (Nat.cast_ne_zero.mpr some.ne') (by norm_num)]
      linarith
    rw [floatPercent, share, lt_inflated_iff most]
    simp [same]
  · refine iff_of_false ?_ (by omega)
    rw [not_lt]
    by_cases most : percentage ≤ 100
    · have small : percentage < 2 * leastNormal := most.trans_lt (by decide)
      exact roundedValue_mul_le part coarse fine ((mul_comm changed 100).trans_lt more) small
    · exact (floatPercent_le part some).trans (Nat.cast_le.mpr (by omega))

end Share

/-! ## Verdicts of reports -/

/-- Whether a report flags exactly the changes that exceed a threshold, in integers. -/
def IsExact (percentage : ℕ) (report : DriftReport) : Prop :=
  report.isDrift = true ↔ percentage * report.total < 100 * report.changes.length

section Verdict

variable {report : DriftReport} {total : ℕ} (counted : report.total = total)
  (part : report.changes.length ≤ total) (some : 0 < total) (fits : total ≤ mostQueries)

include counted part some fits

/-- The percentage that a report shows has the place of the share in floats. -/
theorem place?_percent :
    (ofFloat report.percent).place? = .some (.of (floatPercent report.changes.length total)) := by
  have bound : total < 2 * leastNormal := fits.trans_lt (by decide)
  have placed (n : ℕ) (small : n < 2 * leastNormal) :
      (ofFloat (Float.ofNat n)).place? = .some (.of n) := by
    have nearest := place?_ofScientific n
    rw [roundedValue_natCast small, reached, if_pos (natCast_lt_reach small)] at nearest
    exact nearest
  have quotient := place?_div (placed _ (part.trans_lt bound)) (placed _ bound)
    (Nat.cast_nonneg _) (Nat.cast_pos.mpr some)
  have share := roundedValue_share_le_one part some
  rw [reached, if_pos (share.trans_lt (by decide +kernel))] at quotient
  have hundred : (ofFloat 100.0).place? = .some (.of 100) := by decide +kernel
  have product := place?_mul quotient hundred (roundedValue_nonneg (by positivity)) (by norm_num)
  have below : floatPercent report.changes.length total < reach :=
    (floatPercent_le part some).trans_lt (natCast_lt_reach (by decide))
  unfold floatPercent at below ⊢
  rw [reached, if_pos below] at product
  unfold percent
  rw [counted, if_neg (by omega)]
  exact product

theorem isDrift_iff {q : ℚ} (at? : report.threshold.place? = .some (.of q)) :
    report.isDrift = true ↔ q < floatPercent report.changes.length total := by
  have percent := place?_percent counted part some fits
  unfold isDrift
  rw [Bool.and_eq_true, decide_eq_true_iff, Number.less_iff, at?, Number.place?, percent, counted]
  simp [some]

/-- A verdict is exact unless the share is equal to a threshold that comes out too large. -/
theorem isExact_iff {percentage : ℕ} (at? : report.threshold.place? = .some (.of percentage)) :
    report.IsExact percentage ↔
      ¬(percentage * report.total = 100 * report.changes.length ∧ percentage ∈ inflated) := by
  rw [IsExact, isDrift_iff counted part some fits at?, lt_floatPercent_iff part some fits, counted]
  norm_cast
  constructor
  · rintro exact ⟨same, inflates⟩
    exact absurd (exact.mp (.inr ⟨same, inflates⟩)) same.not_lt
  · intro exact
    constructor
    · rintro (less | equal)
      · exact less
      · exact absurd equal exact
    · exact .inl

end Verdict

end DriftReport

/-! ## The status of comparisons -/

namespace CommandLine

/-- Comparing versions ends with the verdict as its status. -/
theorem status_run_compare {current previous : String} {threshold : Number} {database : Location}
    {surroundings : Surroundings} {report : DriftReport}
    (detected : Plan.detect current previous threshold database surroundings.files = .ok report)
    (shown : ∃ text, report.text DriftReport.standardItems = .ok text) :
    ((Command.compare current previous threshold database).run surroundings).status =
      .ok (if report.isDrift then 1 else 0) := by
  obtain ⟨text, shown⟩ := shown
  simp only [Command.run, compare, detected, shown, bind, Except.bind]
  rfl

end CommandLine

namespace Plan

open DriftReport

private theorem exists_text {report : DriftReport} {limit : Float} (note : report.note = none)
    (has : report.threshold.toFloat? = some limit) (shown : Int) :
    ∃ text, report.text shown = .ok text := by
  unfold DriftReport.text
  rw [note, has]
  exact ⟨_, rfl⟩

private theorem length_queries_pos {observations : List Observation} (some : observations ≠ []) :
    0 < (queries observations).length := by
  obtain ⟨first, rest, rfl⟩ := List.exists_cons_of_ne_nil some
  rw [queries, List.map_cons, List.eraseDups_cons]
  exact Nat.succ_pos _

/-- Two versions with records are compared as whole numbers say, and the program ends with the verdict
as its status, if and only if the share of changed plans is not one of the five thresholds at which it
comes out too large. -/
theorem detect_isExact_iff {current previous : String} {threshold : Number} {percentage : ℕ}
    (at? : threshold.place? = some (.of percentage)) {location : Location} {files : Files}
    {records : List PlanRecord} (loaded : load location files = .ok records)
    (now : observed current records ≠ []) (before : observed previous records ≠ [])
    (fits : (queries (observed current records)).length ≤ mostQueries) :
    ∃ report, detect current previous threshold location files = .ok report ∧
      report.total = (queries (observed current records)).length ∧
      (∀ surroundings : CommandLine.Surroundings, surroundings.files = files →
        threshold.toFloat?.isSome →
        ((CommandLine.Command.compare current previous threshold location).run surroundings).status =
          .ok (if report.isDrift then 1 else 0)) ∧
      (report.IsExact percentage ↔
        ¬(percentage * report.total = 100 * report.changes.length ∧ percentage ∈ inflated)) := by
  have there : files.contains location = true := by
    by_contra absent
    rw [load_of_not_contains (Bool.eq_false_iff.mpr absent)] at loaded
    obtain rfl := Except.ok.inj loaded
    exact now rfl
  have detected : detect current previous threshold location files =
      .ok (reportOn current previous threshold (observed current records) (observed previous records)) := by
    rw [detect, if_pos there, loaded, ← compare_eq_reportOn]
    rfl
  rw [reportOn, if_neg now, if_neg before] at detected
  refine ⟨_, detected, rfl, ?_, ?_⟩
  · rintro surroundings rfl has
    obtain ⟨limit, has⟩ := Option.isSome_iff_exists.mp has
    exact CommandLine.status_run_compare detected (exists_text rfl has _)
  · exact isExact_iff rfl (List.length_filterMap_le _ _) (length_queries_pos now) fits at?

/-- Records of a number of queries for two versions; the first queries have another plan now. -/
def twoVersions (changed total : ℕ) : List PlanRecord :=
  (List.range total).flatMap fun i =>
    let hash := String.ofList (List.replicate i 'q')
    [⟨hash, "RETURN 1", "a", "2024-05-01T00:00:00+00:00", "v1"⟩,
      ⟨hash, "RETURN 1", if i < changed then "b" else "a", "2024-05-02T00:00:00+00:00", "v2"⟩]

private theorem exists_load (records : List PlanRecord) :
    ∃ files, files.contains recordsFile = true ∧ load recordsFile files = .ok records := by
  have plain : recordsFile.hasNull = false := by simp [Location.hasNull, recordsFile]
  have saved : ∃ after, save records recordsFile emptyFolder = .ok after :=
    ⟨_, Files.write_eq_ok_iff.mpr ⟨plain, _, rfl, Status.noConfusion, Status.noConfusion, rfl⟩⟩
  obtain ⟨after, saved⟩ := saved
  exact ⟨after, load_of_save saved⟩

theorem detect_isExact_iff_half :
    ∃ files, (Number.int 50).place? = some (.of (50 : ℕ)) ∧
      load recordsFile files = .ok (twoVersions 2 4) ∧
      observed "v2" (twoVersions 2 4) ≠ [] ∧ observed "v1" (twoVersions 2 4) ≠ [] ∧
      (queries (observed "v2" (twoVersions 2 4))).length ≤ mostQueries ∧
      ∃ report, detect "v2" "v1" (.int 50) recordsFile files = .ok report ∧ report.total = 4 ∧
        report.IsExact 50 := by
  obtain ⟨files, -, loaded⟩ := exists_load (twoVersions 2 4)
  have at? : (Number.int 50).place? = some (.of (50 : ℕ)) := rfl
  have now : observed "v2" (twoVersions 2 4) ≠ [] := by decide +kernel
  have before : observed "v1" (twoVersions 2 4) ≠ [] := by decide +kernel
  have size : (queries (observed "v2" (twoVersions 2 4))).length = 4 := by decide +kernel
  have fits : (queries (observed "v2" (twoVersions 2 4))).length ≤ mostQueries := size.trans_le (by decide)
  obtain ⟨report, detected, total, -, exact⟩ := detect_isExact_iff at? loaded now before fits
  refine ⟨files, at?, loaded, now, before, fits, report, detected, ?_, exact.mpr fun equal => ?_⟩
  · rw [total, size]
    rfl
  · exact absurd equal.2 (by decide)

/-- Eleven of twenty plans are fifty-five percent, but come out above them. -/
theorem not_isExact_equal :
    ∃ files, load recordsFile files = .ok (twoVersions 11 20) ∧
      ∃ report, detect "v2" "v1" (.int 55) recordsFile files = .ok report ∧
        report.total = 20 ∧ report.changes.length = 11 ∧ ¬report.IsExact 55 := by
  obtain ⟨files, there, loaded⟩ := exists_load (twoVersions 11 20)
  have detected : detect "v2" "v1" (.int 55) recordsFile files =
      .ok (DriftReport.compare "v2" "v1" (.int 55) (twoVersions 11 20)) := by
    rw [detect, if_pos there, loaded]
    rfl
  refine ⟨files, loaded, _, detected, by decide +kernel, by decide +kernel, ?_⟩
  intro exact
  have flagged : (DriftReport.compare "v2" "v1" (.int 55) (twoVersions 11 20)).isDrift = true := by
    decide +kernel
  exact absurd (exact.mp flagged) (by decide +kernel)

end Plan

end GraphQuery
