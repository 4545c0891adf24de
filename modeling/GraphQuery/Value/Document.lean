import GraphQuery.Json.Basic
import GraphQuery.Value.Display
import GraphQuery.Value.Order

/-! # Writing values as documents

Values that are handed over as documents keep their shape: tuples become arrays, keys that are
numbers, truth values or null become names, and what JSON has no notation for becomes its text. A
map with any other key has no document, and neither has one that is to be sorted and whose keys do
not compare.
-/

namespace GraphQuery

namespace Value

def keyName? : Value → Option String
  | .text s => some s
  | .int i => some (toString i)
  | .float x => some (Decimal.literal x)
  | .bool b => some (if b then "true" else "false")
  | .null => some "null"
  | _ => none

/-- The fields of an object whose keys are the given values. -/
def namedFields? : List (Value × Json) → Option (List (String × Json))
  | [] => some []
  | (key, item) :: rest =>
    match keyName? key, namedFields? rest with
    | some name, some fields => some ((name, item) :: fields)
    | _, _ => none

mutual

/-- The document of a value, with the keys of maps sorted or as they come. -/
def document? (sortKeys : Bool) : Value → Option Json
  | .null => some .null
  | .bool b => some (.bool b)
  | .int i => some (.int i)
  | .float x => some (.float x)
  | .text s => some (.text s)
  | .list items => (documents? sortKeys items).map .array
  | .tuple items => (documents? sortKeys items).map .array
  | .map entries =>
    (entryDocuments? sortKeys entries).bind fun pairs =>
      (if sortKeys then sortEntries? pairs else some pairs).bind fun pairs =>
        (namedFields? pairs).map .object
  | other => some (.text other.asText)

def documents? (sortKeys : Bool) : List Value → Option (List Json)
  | [] => some []
  | item :: rest =>
    match document? sortKeys item, documents? sortKeys rest with
    | some document, some documents => some (document :: documents)
    | _, _ => none

/-- Entries with the documents of their items. -/
def entryDocuments? (sortKeys : Bool) : List (Value × Value) → Option (List (Value × Json))
  | [] => some []
  | (key, item) :: rest =>
    match document? sortKeys item, entryDocuments? sortKeys rest with
    | some document, some documents => some ((key, document) :: documents)
    | _, _ => none

end

end Value

end GraphQuery
