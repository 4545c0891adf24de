import GraphQuery.Files.Basic
import GraphQuery.Log
import GraphQuery.Plan.Drift

/-! # Keeping plan records

Plan records are kept in a file. Recording reads the file, puts the new records behind the old ones
and writes the file again, so that a fault on the way leaves it as it was. A file that does not
exist holds no records.
-/

namespace GraphQuery

namespace Plan

def channel : String := "cyphergraph.tools.plan_drift"

/-- The file that holds records unless another is given. -/
def standardLocation : Location := .ofText "query-plans.json"

def load (location : Location) (files : Files) : Except Fault (List PlanRecord) :=
  if files.contains location then (files.readText location).bind parse else .ok []

def save (records : List PlanRecord) (location : Location) (files : Files) : Except Fault Files :=
  files.writeText location (write records)

/-- What is said about a number of records for a version. -/
def recordedMessage (count : Nat) (version : String) : String :=
  s!"Recorded {count} query plans for version {version}"

def recordedLine (count : Nat) (version : String) : LogLine :=
  ⟨.info, channel, recordedMessage count version⟩

/-- Records plans for a version: the new records and the files afterwards. -/
def record (version timestamp : String) (plans : List (Subject × Value)) (location : Location)
    (files : Files) : Except Fault (List PlanRecord × Files) := do
  let old ← load location files
  let new ← recordAll version timestamp plans
  let after ← save (old ++ new) location files
  .ok (new, after)

/-- Compares two versions by the records of a file. -/
def detect (current previous : String) (threshold : Number) (location : Location)
    (files : Files) : Except Fault DriftReport :=
  if files.contains location then
    (load location files).map (DriftReport.compare current previous threshold)
  else .ok (DriftReport.missing current previous threshold location.text)

/-- A file that does not exist holds no records. -/
theorem load_of_not_contains {location : Location} {files : Files}
    (absent : files.contains location = false) : load location files = .ok [] := by
  simp [load, absent]

end Plan

end GraphQuery
