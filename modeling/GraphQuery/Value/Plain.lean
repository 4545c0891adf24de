import GraphQuery.Assoc
import GraphQuery.Json.Basic
import GraphQuery.Sorting
import GraphQuery.Value.Display

/-! # Plain and tagged data

There are two ways to turn a value into data for documents. The plain form writes every collection
as a list, a set in the order of its displayed items, and every key as text; dates and decimals
stay what they are. The tagged form is a document for every value and keeps the type of what JSON
has no notation for, so that a date and its text remain distinct. `ordered` sorts the keys of maps
and changes nothing else.
-/

namespace GraphQuery

namespace Value

mutual

/-- The value that a document stands for. -/
def ofJson : Json → Value
  | .null => .null
  | .bool b => .bool b
  | .int i => .int i
  | .float x => .float x
  | .text s => .text s
  | .array items => .list (ofJsonItems items)
  | .object fields => .map (ofJsonFields fields)

def ofJsonItems : List Json → List Value
  | [] => []
  | item :: rest => ofJson item :: ofJsonItems rest

/-- The entries that the fields of an object stand for. -/
def ofJsonFields : List (String × Json) → List (Value × Value)
  | [] => []
  | (name, item) :: rest => (.text name, ofJson item) :: ofJsonFields rest

end

mutual

/-- The plain form of a value. Keys with the same text are one key. -/
def plain : Value → Value
  | .map entries => object (Assoc.ofPairs (plainEntries entries))
  | .list items => .list (plainItems items)
  | .tuple items => .list (plainItems items)
  | .set _ items => .list (sortByText display (plainItems items))
  | other => other

def plainItems : List Value → List Value
  | [] => []
  | item :: rest => plain item :: plainItems rest

/-- Entries with text keys and plain items. -/
def plainEntries : List (Value × Value) → List (String × Value)
  | [] => []
  | (key, item) :: rest => (key.asText, plain item) :: plainEntries rest

end

/-- A document that names a type and holds what belongs to it. -/
def tag (typeName : String) (content : Json) : Json :=
  .object [("$type", .text typeName), ("value", content)]

/-- The fields of an object, if every key is a text. -/
def fieldsOf? : List (Json × Json) → Option (List (String × Json))
  | [] => some []
  | (.text name, item) :: rest => (fieldsOf? rest).map ((name, item) :: ·)
  | _ :: _ => none

/-- A document for the entries of a map: an object if all keys are texts, else a list of pairs in
the order of their canonical texts, tagged with the name of the type of map. -/
def ofTaggedEntries (typeName : String) (entries : List (Json × Json)) : Json :=
  match fieldsOf? entries with
  | some fields => .object fields
  | none =>
    let pairs := entries.map fun (key, item) => Json.array [key, item]
    tag typeName (.array (sortByText Json.canonicalText pairs))

mutual

def tagged : Value → Json
  | .null => .null
  | .bool b => .bool b
  | .int i => .int i
  | .float x => .float x
  | .text s => .text s
  | .list items => .array (taggedItems items)
  | .map entries => ofTaggedEntries "dict" (taggedEntries entries)
  | .tuple items => tag "tuple" (.array (taggedItems items))
  | .set frozen items =>
    tag (typeName (.set frozen [])) (.array (sortByText Json.canonicalText (taggedItems items)))
  | .external kind standard => tag kind.name (.text (asText (.external kind standard)))
  | .entity properties => tag "entity" (ofTaggedEntries "dict" (taggedEntries properties))
  | .record fields => tag "record" (.object (taggedFields fields))

def taggedItems : List Value → List Json
  | [] => []
  | item :: rest => tagged item :: taggedItems rest

def taggedEntries : List (Value × Value) → List (Json × Json)
  | [] => []
  | (key, item) :: rest => (tagged key, tagged item) :: taggedEntries rest

def taggedFields : List (String × Value) → List (String × Json)
  | [] => []
  | (name, item) :: rest => (name, tagged item) :: taggedFields rest

end

mutual

/-- Sorts the keys of every map that is reached through maps, lists and tuples by their text. -/
def ordered : Value → Value
  | .map entries => .map (sortByText (fun entry => entry.1.asText) (orderedEntries entries))
  | .list items => .list (orderedItems items)
  | .tuple items => .tuple (orderedItems items)
  | other => other

def orderedItems : List Value → List Value
  | [] => []
  | item :: rest => ordered item :: orderedItems rest

def orderedEntries : List (Value × Value) → List (Value × Value)
  | [] => []
  | (key, item) :: rest => (key, ordered item) :: orderedEntries rest

end

end Value

end GraphQuery
