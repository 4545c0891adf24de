import GraphQuery.Fault.Basic
import GraphQuery.Query.Digest
import GraphQuery.Value.Document

/-! # Queries in documents

A document may hold a query as data. What is made of it is another document: the text of the query,
its parameters and its digest. The digest is always that of the normal form, whichever form the text
is written from.
-/

namespace GraphQuery

/-- Reads the value that a document holds, if its brackets are nested no deeper than a limit. -/
def readDocument (depth : Nat) (source : String) : Except Fault Value :=
  if Json.isTooDeep depth source then .error .tooDeep
  else ((Json.parse source).mapError (Fault.ofDocument source)).map Value.ofJson

namespace Query

/-- The fault of data that is a tree, but no query. -/
def notAQuery (t : Tree) : Fault :=
  let kind := t.kind?.getD ""
  .plain .value s!"Expected a Query document, got {kind}"

def ofData (data : Value) : Except Fault Query :=
  match Tree.ofData data with
  | .error fault => .error (.ofDecoding fault)
  | .ok t =>
    match ofTree? t with
    | some query => .ok query
    | none => .error (notAQuery t)

def parameterDocument (parameters : List (Value × Value)) : Except Fault Json :=
  match Value.document? false (.map parameters) with
  | some document => .ok document
  | none => .error (.plain .type "keys of parameters must be scalars")

/-- The document about a query, with the text of its normal form or with its own text. -/
def report (normalized : Bool) (query : Query) : Except Fault Json := do
  let statement ← ofTree (if normalized then query.build else query.statement)
  let hash ← ofTree query.hash
  let parameters ← parameterDocument statement.parameters
  .ok (.object [("text", .text statement.text), ("parameters", parameters), ("hash", .text hash)])

end Query

end GraphQuery
