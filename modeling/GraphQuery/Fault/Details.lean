import GraphQuery.Fault.Basic

/-! # Domain faults from their details

Domain faults can be made from details that are given in order or by name. A detail that is not
given is null.
-/

namespace GraphQuery

/-- The names of the details of a domain fault, in order. -/
def DomainKind.details : DomainKind → List String
  | .query => ["message", "cause", "query", "parameters"]
  | .connection => ["message", "cause", "url", "database"]
  | .validation => ["message", "cause", "schema", "raw_data"]
  | .constraint => ["message", "cause", "constraint", "values"]
  | .circuitOpen => ["name"]
  | .timeout => ["timeout_ms", "query"]
  | _ => ["message", "cause", "context"]

namespace Fault

def detailEntries : Value → List (Value × Value)
  | .map entries => entries
  | _ => []

def ofDetails (kind : DomainKind) (cause : Option Fault) (inOrder : List Value)
    (named : List (String × Value)) : Fault :=
  let given := kind.details.zip inOrder ++ named
  let get (name : String) : Value := (given.lookup name).getD .null
  let message := (get "message").asText
  match kind with
  | .query => .query message cause (get "query") (detailEntries (get "parameters"))
  | .connection => .unreachable message cause (get "url") (get "database")
  | .validation => .validation message cause (get "schema") (get "raw_data")
  | .constraint => .constraint message cause (get "constraint") (detailEntries (get "values"))
  | .circuitOpen => .circuitOpen (get "name").asText
  | .timeout => .timedOut ((Number.ofValue? (get "timeout_ms")).getD (.int 0)) (get "query")
  | kind =>
    let context := (detailEntries (get "context")).map fun entry => (entry.1.asText, entry.2)
    .domain kind message cause context

end Fault

end GraphQuery
