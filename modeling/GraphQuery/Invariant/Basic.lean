import GraphQuery.Fault.Basic
import GraphQuery.Text.Identifier

/-! # Invariants of a graph

An invariant demands something of every node with a label. It is checked by a statement that counts
the nodes or values that break it and collects a few samples. Labels, types and keys become part of
the statement's text, so that only identifiers are accepted for them.
-/

namespace GraphQuery

/-- What is demanded of the nodes with a label. -/
inductive Demand where
  /-- Exactly one relationship of a type comes in from a node with the target label. -/
  | singleIncoming (relationship target : String)
  /-- The node has a property. -/
  | hasProperty (key : String)
  /-- No two nodes have the same value of a property. -/
  | distinctProperty (key : String)
  deriving DecidableEq, Repr

def Demand.names : Demand → List String
  | .singleIncoming relationship target => [relationship, target]
  | .hasProperty key => [key]
  | .distinctProperty key => [key]

/-- An invariant. -/
structure Invariant where
  name : String
  label : String
  demand : Demand
  deriving DecidableEq, Repr

namespace Invariant

/-- The fault of a name that cannot be part of a statement. -/
def badName (name : String) : Fault :=
  .plain .value s!"Not a valid identifier: {Text.display name}"

/-- Accepts the names that may be part of a statement. -/
def accept : List String → Except Fault Unit
  | [] => .ok ()
  | name :: rest =>
    if Text.isIdentifierLine name.toList then accept rest else .error (badName name)

/-- An invariant whose names are all identifiers. -/
def create (name label : String) (demand : Demand) : Except Fault Invariant :=
  (accept (label :: demand.names)).map fun _ => ⟨name, label, demand⟩

/-- How many samples are collected. -/
def sampleSize : Nat := 5

/-- The text of the statement that checks an invariant. -/
def text (invariant : Invariant) : String :=
  let label := invariant.label
  match invariant.demand with
  | .singleIncoming relationship target =>
    s!"MATCH (n:{label}) OPTIONAL MATCH (n)<-[r:{relationship}]-(t:{target}) " ++
      "WITH n, count(r) AS relCount WHERE relCount <> 1 " ++
      s!"RETURN count(n) AS violationCount, collect(n.id)[..{sampleSize}] AS sampleIds"
  | .hasProperty key =>
    s!"MATCH (n:{label}) WHERE n.{key} IS NULL " ++
      s!"RETURN count(n) AS missingCount, collect(n.id)[..{sampleSize}] AS sampleIds"
  | .distinctProperty key =>
    s!"MATCH (n:{label}) WHERE n.{key} IS NOT NULL " ++
      s!"WITH n.{key} AS value, count(*) AS cnt WHERE cnt > 1 " ++
      s!"RETURN count(*) AS duplicateCount, collect(value)[..{sampleSize}] AS sampleValues"

/-- The column that counts what breaks an invariant. -/
def countColumn (invariant : Invariant) : String :=
  match invariant.demand with
  | .singleIncoming _ _ => "violationCount"
  | .hasProperty _ => "missingCount"
  | .distinctProperty _ => "duplicateCount"

/-- The column with samples of what breaks an invariant. -/
def sampleColumn (invariant : Invariant) : String :=
  match invariant.demand with
  | .singleIncoming _ _ | .hasProperty _ => "sampleIds"
  | .distinctProperty _ => "sampleValues"

/-- The message about an invariant that holds. -/
def success (invariant : Invariant) : String :=
  let label := invariant.label
  match invariant.demand with
  | .singleIncoming relationship _ =>
    s!"All {label} nodes have exactly one {relationship} relationship"
  | .hasProperty key => s!"All {label} nodes have required property {key}"
  | .distinctProperty key => s!"Property {key} is unique across all {label} nodes"

/-- The message about an invariant that is broken a number of times. -/
def failure (count : Int) (invariant : Invariant) : String :=
  let label := invariant.label
  match invariant.demand with
  | .singleIncoming relationship _ =>
    s!"Found {count} {label} nodes without exactly one {relationship} relationship"
  | .hasProperty key => s!"Found {count} {label} nodes missing property {key}"
  | .distinctProperty key => s!"Found {count} duplicate values for property {key}"

/-- The invariants of a graph of people and their posts. -/
def examples : List Invariant := [
  ⟨"Post has unique author", "Post", .singleIncoming "AUTHORED" "Person"⟩,
  ⟨"Person has name", "Person", .hasProperty "name"⟩,
  ⟨"Person ID is unique", "Person", .distinctProperty "id"⟩]

end Invariant

end GraphQuery
