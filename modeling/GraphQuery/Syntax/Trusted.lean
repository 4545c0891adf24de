import GraphQuery.Syntax.Tree
import GraphQuery.Value.Display

/-! # Trees from trusted data

Data that comes from code rather than from a file is read without checks: every object with a known
kind is a node, and any tree may stand in any place. Only the names of the fields matter, and which
of them are given.
-/

namespace GraphQuery

namespace Tree

/-- The kinds of nodes, each with its fields and whether they are required. -/
def declaredFields : List (String × List (String × Bool)) := [
  ("Literal", [("value", true)]),
  ("Property", [("variable", true), ("key", true)]),
  ("Parameter", [("name", true)]),
  ("BinaryOp", [("op", true), ("left", true), ("right", true)]),
  ("UnaryOp", [("op", true), ("operand", true)]),
  ("Function", [("name", true), ("args", false)]),
  ("Node", [("variable", true), ("labels", false), ("properties", false)]),
  ("Relationship", [("direction", true), ("type", false), ("variable", false),
    ("properties", false)]),
  ("Path", [("elements", false)]),
  ("Variable", [("name", true), ("alias", false)]),
  ("Expression", [("expr", true), ("alias", false)]),
  ("Assignment", [("variable", true), ("key", true), ("value", true)]),
  ("OrderItem", [("expr", true), ("direction", false)]),
  ("Match", [("pattern", true), ("optional", false)]),
  ("Where", [("condition", true)]),
  ("Create", [("pattern", true)]),
  ("Delete", [("variables", true), ("detach", false)]),
  ("Set", [("assignments", true)]),
  ("With", [("expressions", true)]),
  ("Return", [("expressions", true)]),
  ("OrderBy", [("items", true)]),
  ("Skip", [("count", true)]),
  ("Limit", [("count", true)]),
  ("Query", [("clauses", false), ("parameters", false)])
]

/-- The value that a tree without nodes stands for. -/
def plainValue : Tree → Value
  | .scalar value => value
  | .tuple items => .tuple (items.map fun t => match t with
    | .scalar value => value
    | _ => .null)
  | _ => .null

def asName (t : Tree) : String :=
  t.plainValue.asText

def asName? : Tree → Option String
  | .scalar .null => none
  | t => some t.asName

def items : Tree → List Tree
  | .tuple items => items
  | _ => []

/-- A tree as properties that may be absent. -/
def asProperties? : Tree → Option (List (String × Tree))
  | .mapping entries => some (entries.map fun entry => (entry.1.asText, entry.2))
  | _ => none

/-- The node of a kind with the given fields. `raw` is the data as it stands, from which literals
and parameters are taken; `get` gives a field, or its second argument if the field is absent. -/
def construct (kind : String) (raw : String → Option Value) (get : String → Tree → Tree) : Tree :=
  let absent := Tree.scalar .null
  let no := Tree.scalar (.bool false)
  let field (name : String) : Tree := get name absent
  let several (name : String) : List Tree := (get name absent).items
  match kind with
  | "Literal" => .literal ((raw "value").getD .null)
  | "Property" => .property (field "variable").asName (field "key").asName
  | "Parameter" => .parameter (field "name").asName
  | "BinaryOp" => .binary (field "op").asName (field "left") (field "right")
  | "UnaryOp" => .unary (field "op").asName (field "operand")
  | "Function" => .call (field "name").asName (several "args")
  | "Node" =>
    .node (field "variable").asName ((several "labels").map asName)
      (field "properties").asProperties?
  | "Relationship" =>
    .relationship (field "direction").asName (field "type").asName? (field "variable").asName?
      (field "properties").asProperties?
  | "Path" => .path (several "elements")
  | "Variable" => .variableItem (field "name").asName (field "alias").plainValue
  | "Expression" => .expressionItem (field "expr") (field "alias").plainValue
  | "Assignment" =>
    .assignment (field "variable").asName (field "key").asName (field "value")
  | "OrderItem" => .orderItem (field "expr") (get "direction" (.scalar (.text "ASC"))).asName
  | "Match" => .matchClause (field "pattern") (get "optional" no).plainValue
  | "Where" => .whereClause (field "condition")
  | "Create" => .createClause (field "pattern")
  | "Delete" => .deleteClause ((several "variables").map asName) (get "detach" no).plainValue
  | "Set" => .setClause (several "assignments")
  | "With" => .withClause (several "expressions")
  | "Return" => .returnClause (several "expressions")
  | "OrderBy" => .orderByClause (several "items")
  | "Skip" => .skipClause (field "count").plainValue
  | "Limit" => .limitClause (field "count").plainValue
  | _ =>
    match raw "parameters" with
    | some (.map parameters) => .query (several "clauses") parameters
    | _ => .query (several "clauses") []

/-- Whether an object has all fields that are required and no unknown one. -/
def hasFields (declared : List (String × Bool)) (entries : List (Value × Value)) : Bool :=
  declared.all (fun (name, required) => !required || (Value.lookup name entries).isSome) &&
    entries.all fun entry =>
      entry.1.isText "kind" || declared.any fun (name, _) => entry.1.isText name

/-- The field of a kind whose data is kept as it stands. -/
def rawField (kind : String) : Option String :=
  if kind = "Literal" then some "value" else if kind = "Query" then some "parameters" else none

mutual

/-- Reads trusted data. There is no tree if an object lacks a required field or has an unknown
one. -/
def ofTrusted? : Value → Option Tree
  | .map entries =>
    match Value.lookup "kind" entries with
    | some (.text kind) =>
      match declaredFields.lookup kind with
      | some declared =>
        if hasFields declared entries then
          (ofTrustedEntries? (rawField kind) entries).map fun fields =>
            construct kind (Value.lookup · entries) fun name absent =>
              ((fields.find? fun field => field.1.isText name).map Prod.snd).getD absent
        else none
      | none => (ofTrustedEntries? none entries).map .mapping
    | _ => (ofTrustedEntries? none entries).map .mapping
  | .list items => (ofTrustedItems? items).map .tuple
  | value => some (.scalar value)

/-- Reads several items of trusted data. -/
def ofTrustedItems? : List Value → Option (List Tree)
  | [] => some []
  | item :: rest =>
    (ofTrusted? item).bind fun t => (ofTrustedItems? rest).map (t :: ·)

/-- Reads the entries of a trusted object, but does not look into the raw one. -/
def ofTrustedEntries? (raw : Option String) :
    List (Value × Value) → Option (List (Value × Tree))
  | [] => some []
  | (key, item) :: rest =>
    if raw.any (key.isText ·) then ofTrustedEntries? raw rest
    else (ofTrusted? item).bind fun t => (ofTrustedEntries? raw rest).map ((key, t) :: ·)

end

end Tree

end GraphQuery
