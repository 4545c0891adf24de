import GraphQuery.Assoc
import GraphQuery.Plan.Record

/-! # Plan drift

Two versions drift apart if the plans of more queries changed between them than a threshold allows.
Of several records of a query for one version the last one counts, and queries that only one of the
versions has do not count as changed.
-/

namespace GraphQuery

/-- A query whose plan changed. -/
structure PlanChange where
  query : String
  before : String
  after : String
  deriving DecidableEq, Repr

def PlanChange.shown (change : PlanChange) : String :=
  s!"{change.before} → {change.after}"

/-- How far two versions drifted apart. A note says why nothing was compared. -/
structure DriftReport where
  current : String
  previous : String
  threshold : Number
  total : Int
  changes : List PlanChange
  note : Option String

namespace DriftReport

/-- The threshold in percent that holds unless another is given. -/
def standardThreshold : Number := .float 10.0

/-- How many changes are listed unless another number is given. -/
def standardItems : Int := 5

/-- How much of a query is shown. -/
def previewLength : Nat := 60

/-- The share of changed plans in percent. -/
def percent (report : DriftReport) : Float :=
  if report.total = 0 then 0.0
  else Float.ofNat report.changes.length / Float.ofInt report.total * 100.0

/-- Whether more plans changed than the threshold allows. -/
def isDrift (report : DriftReport) : Bool :=
  0 < report.total && report.threshold.less (.float report.percent)

/-- The last record of every query for a version, under the query's name. -/
def latest (version : String) (records : List PlanRecord) : List (String × PlanRecord) :=
  Assoc.ofPairs ((records.filter fun record => record.version = version).map fun record =>
    (record.hash, record))

/-- The change of a query's plan, if the query was there before and its plan is another now. -/
def change? (previous : List (String × PlanRecord)) (entry : String × PlanRecord) :
    Option PlanChange :=
  (Assoc.get? entry.1 previous).bind fun before =>
    if entry.2.planDigest = before.planDigest then none
    else
      let preview := String.ofList (entry.2.text.toList.take previewLength)
      some ⟨preview, before.planDigest, entry.2.planDigest⟩

def compare (current previous : String) (threshold : Number) (records : List PlanRecord) :
    DriftReport :=
  let without (note : String) : DriftReport := ⟨current, previous, threshold, 0, [], some note⟩
  let now := latest current records
  let before := latest previous records
  if now.isEmpty then without s!"No plans found for current version {current}"
  else if before.isEmpty then without s!"No plans found for previous version {previous}"
  else ⟨current, previous, threshold, now.length, now.filterMap (change? before), none⟩

/-- The report if there are no records at all at a place. -/
def missing (current previous : String) (threshold : Number) (place : String) : DriftReport :=
  ⟨current, previous, threshold, 0, [], some s!"No plan database found at {place}"⟩

/-- The first items of a list; a negative number leaves out as many at the end. -/
def firstItems {Item : Type} (count : Int) (items : List Item) : List Item :=
  if 0 ≤ count then items.take count.toNat else items.take (items.length + count).toNat

def changeLines (shown : Int) (changes : List PlanChange) : List String :=
  let listed := (firstItems shown changes).flatMap fun change =>
    [s!"  - {change.query}...", s!"    {change.shown}"]
  let omitted := changes.length - shown
  let rest := if 0 < omitted then [s!"  ... and {omitted} more"] else []
  if changes.isEmpty then [] else ["Changed query plans:"] ++ listed ++ rest

def text (shown : Int) (report : DriftReport) : Except Fault String :=
  match report.note.filter fun note => !note.isEmpty, report.threshold.toFloat? with
  | some note, _ => .ok note
  | none, none => .error Fault.tooLargeForFloat
  | none, some limit =>
    let share := Decimal.fixed 1 report.percent
    let threshold := Decimal.general limit
    let verdict :=
      if report.isDrift then s!"DRIFT DETECTED: {share}% exceeds threshold of {threshold}%"
      else s!"Drift within acceptable range ({share}% <= {threshold}%)"
    let opening := ["Plan Drift Analysis", "===================",
      s!"Current version: {report.current}", s!"Previous version: {report.previous}",
      s!"Total queries: {report.total}",
      s!"Plans changed: {report.changes.length} ({share}%)", s!"Threshold: {threshold}%"]
    .ok ("\n".intercalate (opening ++ changeLines shown report.changes ++ [verdict]))

end DriftReport

end GraphQuery
