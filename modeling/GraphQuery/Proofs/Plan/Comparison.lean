import GraphQuery.Plan.Drift
import GraphQuery.Proofs.Assoc

/-! # What versions are compared by

A comparison of two versions sees of every record only the query and the digest of its plan, and of
all records of a query for a version only the last one. So it is a function of what was observed
under the two versions, in the order of the observations.
-/

namespace GraphQuery

namespace Plan

/-- What a record says about the plan of a query, apart from when and for which version it was
made. -/
structure Observation where
  hash : String
  text : String
  planDigest : String
  deriving DecidableEq, Repr

def observation (record : PlanRecord) : Observation :=
  ⟨record.hash, record.text, record.planDigest⟩

/-- What the records say about a version, in their order. -/
def observed (version : String) (records : List PlanRecord) : List Observation :=
  (records.filter fun record => record.version = version).map observation

/-- The queries that were observed, in the order of their first observations. -/
def queries (observations : List Observation) : List String :=
  (observations.map Observation.hash).eraseDups

def last? (hash : String) (observations : List Observation) : Option Observation :=
  (observations.filter fun observation => observation.hash = hash).getLast?

/-- The change of the plan of a query between its last observations, if there is one. -/
def changeOf? (now before : List Observation) (hash : String) : Option PlanChange :=
  (last? hash now).bind fun current => (last? hash before).bind fun previous =>
    if current.planDigest = previous.planDigest then none
    else some ⟨String.ofList (current.text.toList.take 60), previous.planDigest, current.planDigest⟩

/-- A report on what was observed now and before: of all queries observed now, those with another
plan than before are listed. Without observations on either side there is a note instead. -/
structure Reports (now before : List Observation) (report : DriftReport) : Prop where
  compared : now ≠ [] → before ≠ [] → report.total = (queries now).length ∧
    report.changes = (queries now).filterMap (changeOf? now before) ∧ report.note = none
  skipped : now = [] ∨ before = [] →
    report.total = 0 ∧ report.changes = [] ∧ report.note.isSome = true

/-- Reports on the same observations differ in their notes at most. -/
theorem Reports.agree {now before : List Observation} {report other : DriftReport}
    (first : Reports now before report) (second : Reports now before other) :
    other.total = report.total ∧ other.changes = report.changes := by
  by_cases skipped : now = [] ∨ before = []
  · obtain ⟨total, changes, -⟩ := first.skipped skipped
    obtain ⟨total', changes', -⟩ := second.skipped skipped
    exact ⟨total'.trans total.symm, changes'.trans changes.symm⟩
  · obtain ⟨someNow, someBefore⟩ := not_or.mp skipped
    obtain ⟨total, changes, -⟩ := first.compared someNow someBefore
    obtain ⟨total', changes', -⟩ := second.compared someNow someBefore
    exact ⟨total'.trans total.symm, changes'.trans changes.symm⟩

/-- The report on observations that were read from a file. -/
def reportOn (current previous : String) (threshold : Number) (now before : List Observation) :
    DriftReport :=
  if now = [] then
    ⟨current, previous, threshold, 0, [], some s!"No plans found for current version {current}"⟩
  else if before = [] then
    ⟨current, previous, threshold, 0, [], some s!"No plans found for previous version {previous}"⟩
  else
    ⟨current, previous, threshold, (queries now).length,
      (queries now).filterMap (changeOf? now before), none⟩

theorem reports_reportOn (current previous : String) (threshold : Number)
    (now before : List Observation) :
    Reports now before (reportOn current previous threshold now before) := by
  unfold reportOn
  split
  · rename_i none
    exact ⟨fun some => absurd none some, fun _ => ⟨rfl, rfl, rfl⟩⟩
  · split
    · rename_i none
      exact ⟨fun _ some => absurd none some, fun _ => ⟨rfl, rfl, rfl⟩⟩
    · rename_i someNow someBefore
      exact ⟨fun _ _ => ⟨rfl, rfl, rfl⟩,
        fun skipped => absurd skipped (not_or.mpr ⟨someNow, someBefore⟩)⟩

end Plan

namespace DriftReport

open Plan

variable {version : String} {records : List PlanRecord}

private theorem map_fst_latest :
    (latest version records).map Prod.fst = queries (observed version records) := by
  rw [latest, Assoc.map_fst_ofPairs, queries, observed, List.map_map, List.map_map]
  rfl

private theorem get?_latest (hash : String) :
    (Assoc.get? hash (latest version records)).map observation = last? hash (observed version records) := by
  rw [latest, Assoc.get?_ofPairs, last?, observed, List.filter_map, List.getLast?_map, List.filter_map,
    List.getLast?_map, Option.map_map, Option.map_map]
  rfl

private theorem latest_eq_nil_iff : latest version records = [] ↔ observed version records = [] := by
  rw [← List.map_eq_nil_iff, map_fst_latest, queries]
  cases observed version records with
  | nil => simp
  | cons first rest => simp [List.eraseDups_cons]

private theorem change?_eq {current previous : String} {entry : String × PlanRecord}
    (member : entry ∈ latest current records) :
    change? (latest previous records) entry =
      changeOf? (observed current records) (observed previous records) entry.1 := by
  obtain ⟨hash, record⟩ := entry
  have found : Assoc.get? hash (latest current records) = some record :=
    Assoc.get?_of_mem (Assoc.nodup_ofPairs _) member
  have now : last? hash (observed current records) = some (observation record) := by
    rw [← get?_latest, found, Option.map_some]
  rw [change?, changeOf?, now, Option.bind_some, ← get?_latest, Option.bind_map]
  rfl

private theorem filterMap_change? (current previous : String) (records : List PlanRecord) :
    (latest current records).filterMap (change? (latest previous records)) =
      (queries (observed current records)).filterMap
        (changeOf? (observed current records) (observed previous records)) := by
  rw [← map_fst_latest, List.filterMap_map]
  exact List.filterMap_congr fun entry member => change?_eq member

/-- A comparison is the report on what the records say about the two versions. -/
theorem compare_eq_reportOn (current previous : String) (threshold : Number) (records : List PlanRecord) :
    compare current previous threshold records =
      reportOn current previous threshold (observed current records) (observed previous records) := by
  have total : (latest current records).length = (queries (observed current records)).length := by
    rw [← map_fst_latest, List.length_map]
  simp only [compare, reportOn, List.isEmpty_iff, latest_eq_nil_iff, filterMap_change?, total]

end DriftReport

end GraphQuery
