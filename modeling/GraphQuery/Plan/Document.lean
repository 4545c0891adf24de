import GraphQuery.Plan.Record
import GraphQuery.Query.Document

/-! # Plans in documents

A document of plans is a list. Each of its entries has a query, as text or as data, and the plan of
that query. The first entry that is amiss is reported with its number.
-/

namespace GraphQuery.Plan

/-- The fault of a document of plans that is no list. -/
def notAList : Fault :=
  .plain .value "Plans file must contain a JSON list"

/-- The fault of an entry without a query or a plan. -/
def badEntry (number : Nat) : Fault :=
  .plain .value s!"Plans entry #{number} must be an object with 'query' and 'plan'"

def subjectOf : Value → Except Fault Subject
  | .text s => .ok (.text s)
  | data => (Query.ofData data).map fun query => .tree query.toTree

def entryOf (number : Nat) (item : Value) : Except Fault (Subject × Value) :=
  match item with
  | .map fields =>
    match Value.lookup "query" fields, Value.lookup "plan" fields with
    | some query, some plan => (subjectOf query).map fun subject => (subject, plan)
    | _, _ => .error (badEntry number)
  | _ => .error (badEntry number)

def entriesFrom : (number : Nat) → List Value → Except Fault (List (Subject × Value))
  | _, [] => .ok []
  | number, item :: rest => do
    let entry ← entryOf number item
    let entries ← entriesFrom (number + 1) rest
    .ok (entry :: entries)

/-- Reads the entries of a document of plans. -/
def entriesOf : Value → Except Fault (List (Subject × Value))
  | .list items => entriesFrom 0 items
  | _ => .error notAList

end GraphQuery.Plan
