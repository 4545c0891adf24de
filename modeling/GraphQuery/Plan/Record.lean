import GraphQuery.Query.Digest
import GraphQuery.Schema.Basic
import GraphQuery.Value.Document

/-! # Recorded query plans

A plan record keeps the digest of the plan of a query for a version of the software. Queries are
known by their digest, or by the digest of their text if they are given as text. Records are kept in
a document, where every field has a name of its own; documents may also use the plain names.
-/

namespace GraphQuery

/-- The plan of a query, recorded for a version. -/
structure PlanRecord where
  hash : String
  text : String
  planDigest : String
  timestamp : String
  version : String
  deriving DecidableEq, Repr

namespace Plan

def digest (plan : Value) : Except Fault String :=
  match plan.document? true with
  | some document => .ok (GraphQuery.digest (Json.write .compact document))
  | none => .error (.plain .type "keys of plans must be comparable scalars")

/-- What a plan belongs to. -/
inductive Subject where
  | text (s : String)
  | tree (t : Tree)

/-- The name of a query among records, and its text. -/
def Subject.key : Subject → Except Fault (String × String)
  | .text s => .ok (s!"text-{GraphQuery.digest s}", s)
  | .tree t =>
    match Query.ofTree? t with
    | none => .error (.plain .type "only queries have plans")
    | some query => do
      let hash ← ofTree query.hash
      let statement ← ofTree query.build
      .ok (hash, statement.text)

end Plan

namespace PlanRecord

def create (version timestamp : String) (subject : Plan.Subject) (plan : Value) :
    Except Fault PlanRecord := do
  let (hash, text) ← subject.key
  let planDigest ← Plan.digest plan
  .ok ⟨hash, text, planDigest, timestamp, version⟩

/-- Reads a field that has two names; the first one wins. -/
def fieldUnder (first second : String) (entries : List (Value × Value)) : Checked String :=
  match Value.lookup first entries, Value.lookup second entries with
  | none, some value => Schema.under second (Schema.text value)
  | _, _ => Schema.field first Schema.text entries

def ofEntries (entries : List (Value × Value)) : Checked PlanRecord :=
  let hash := fieldUnder "queryHash" "query_hash" entries
  let text := fieldUnder "cypher" "text" entries
  let planDigest := fieldUnder "planDigest" "plan_digest" entries
  let timestamp := Schema.field "timestamp" Schema.text entries
  let version := Schema.field "version" Schema.text entries
  match hash, text, planDigest, timestamp, version with
  | .ok hash, .ok text, .ok planDigest, .ok timestamp, .ok version =>
    .ok ⟨hash, text, planDigest, timestamp, version⟩
  | _, _, _, _, _ =>
    .error (Schema.issues hash ++ Schema.issues text ++ Schema.issues planDigest ++
      Schema.issues timestamp ++ Schema.issues version)

def check (value : Value) : Checked PlanRecord :=
  match Schema.entries value with
  | .ok entries => ofEntries entries
  | .error issues => .error issues

def toJson (record : PlanRecord) : Json :=
  .object [("queryHash", .text record.hash), ("cypher", .text record.text),
    ("planDigest", .text record.planDigest), ("timestamp", .text record.timestamp),
    ("version", .text record.version)]

/-- A record under its plain names. -/
def toValue (record : PlanRecord) : Value :=
  .object [("query_hash", .text record.hash), ("text", .text record.text),
    ("plan_digest", .text record.planDigest), ("timestamp", .text record.timestamp),
    ("version", .text record.version)]

end PlanRecord

namespace Plan

def schemaName : String := "PlanDatabase"

/-- Reads the records of a plan document. -/
def check (value : Value) : Checked (List PlanRecord) :=
  match Schema.entries value with
  | .ok entries => Schema.fieldOr "records" [] (Schema.list PlanRecord.check) entries
  | .error issues => .error issues

/-- Reads the text of a plan document. -/
def parse (source : String) : Except Fault (List PlanRecord) :=
  let result := match Json.parse source with
    | .ok document => check (Value.ofJson document)
    | .error _ => Schema.reject .invalidDocument
  result.mapError (.invalid schemaName)

def write (records : List PlanRecord) : String :=
  Json.writeIndented (.object [("records", .array (records.map PlanRecord.toJson))]) ++ "\n"

def recordAll (version timestamp : String) (plans : List (Subject × Value)) :
    Except Fault (List PlanRecord) :=
  plans.mapM fun (subject, plan) => PlanRecord.create version timestamp subject plan

end Plan

end GraphQuery
