import GraphQuery.Assoc

/-! # Values carried by queries

Literals, parameters, records, plans and settings are dynamic: they come from documents, from
callers and from the database. `Value` is the one type for them. A map keeps the order in which
its entries were written and its keys may be any value; a map whose keys are all texts is what a
document calls an object.
-/

namespace GraphQuery

/-- Kinds of value that no document can express and that are known here by their text alone. -/
inductive ExternalKind where
  | date
  | time
  | datetime
  | decimal
  deriving DecidableEq, Repr

/-- The name under which a kind of external value is tagged. -/
def ExternalKind.name : ExternalKind → String
  | .date => "date"
  | .time => "time"
  | .datetime => "datetime"
  | .decimal => "Decimal"

/-- Dynamic values. -/
inductive Value where
  | null
  | bool (b : Bool)
  | int (i : Int)
  | float (x : Float)
  | text (s : String)
  | list (items : List Value)
  | tuple (items : List Value)
  | set (frozen : Bool) (items : List Value)
  | map (entries : List (Value × Value))
  /-- A date, a time of day, a time stamp or a decimal, given by its standard text. -/
  | external (kind : ExternalKind) (standard : String)
  /-- A graph entity handed out by the database: it lists properties but is no map. -/
  | entity (properties : List (Value × Value))
  /-- A record that a schema has decoded. -/
  | record (fields : List (String × Value))
  deriving Inhabited

namespace Value

/-- An object: a map with text keys. -/
def object (fields : List (String × Value)) : Value :=
  .map (fields.map fun field => (.text field.1, field.2))

def text? : Value → Option String
  | .text s => some s
  | _ => none

def isText (s : String) : Value → Bool
  | .text t => t == s
  | _ => false

/-- The item under a text key of a list of entries. -/
def lookup (key : String) : List (Value × Value) → Option Value
  | [] => none
  | (k, item) :: rest => if k.isText key then some item else lookup key rest

/-- The entries of a map whose keys are all texts. -/
def textKeyed? : List (Value × Value) → Option (List (String × Value))
  | [] => some []
  | (.text key, item) :: rest => (textKeyed? rest).map ((key, item) :: ·)
  | _ :: _ => none

/-- Whether a value counts as present: null, false, zero and the empty collections do not. -/
def isPresent : Value → Bool
  | .null => false
  | .bool b => b
  | .int i => i != 0
  | .float x => x != 0
  | .text s => !s.isEmpty
  | .list items => !items.isEmpty
  | .tuple items => !items.isEmpty
  | .set _ items => !items.isEmpty
  | .map entries => !entries.isEmpty
  | .external _ _ => true
  | .entity _ => true
  | .record _ => true

/-- The name of the type of a value, as messages and tags show it. -/
def typeName : Value → String
  | .null => "NoneType"
  | .bool _ => "bool"
  | .int _ => "int"
  | .float _ => "float"
  | .text _ => "str"
  | .list _ => "list"
  | .tuple _ => "tuple"
  | .set false _ => "set"
  | .set true _ => "frozenset"
  | .map _ => "dict"
  | .external kind _ => kind.name
  | .entity _ => "entity"
  | .record _ => "record"

end Value

end GraphQuery
