import GraphQuery.Syntax.Tree
import GraphQuery.Value.Document
import GraphQuery.Value.Plain

/-! # Outlines

The outline of a tree lists the fields of every node under their names, in order. The three ways to
write a tree are functions of its outline: the text that messages show, the data that can be stored,
and the document whose canonical text identifies the tree.
-/

namespace GraphQuery

/-- The fields of a tree. -/
inductive Outline where
  | node (kind : String) (fields : List (String × Outline))
  | tuple (items : List Outline)
  /-- The properties of a pattern. -/
  | properties (entries : List (String × Outline))
  /-- Trees under keys that belong to no node. -/
  | mapping (entries : List (Value × Outline))
  /-- The values of the parameters of a query. -/
  | parameters (entries : List (Value × Value))
  /-- A value that the caller wrote into the query. -/
  | data (value : Value)
  /-- A field that is neither a tree nor data of the caller. -/
  | scalar (value : Value)
  deriving Inhabited

namespace Outline

def name (s : String) : Outline :=
  .scalar (.text s)

/-- The outline of a name that may be absent. -/
def name? : Option String → Outline
  | none => .scalar .null
  | some s => name s

end Outline

mutual

def Tree.outline : Tree → Outline
  | .literal value => .node "Literal" [("value", .data value)]
  | .property subject key => .node "Property" [("variable", .name subject), ("key", .name key)]
  | .parameter name => .node "Parameter" [("name", .name name)]
  | .binary op left right =>
    .node "BinaryOp" [("op", .name op), ("left", left.outline), ("right", right.outline)]
  | .unary op operand => .node "UnaryOp" [("op", .name op), ("operand", operand.outline)]
  | .call name args => .node "Function" [("name", .name name), ("args", .tuple (outlines args))]
  | .node name labels properties =>
    .node "Node" [("variable", .name name), ("labels", .tuple (labels.map .name)),
      ("properties", outlineProperties properties)]
  | .relationship direction type name properties =>
    .node "Relationship" [("direction", .name direction), ("type", .name? type),
      ("variable", .name? name), ("properties", outlineProperties properties)]
  | .path elements => .node "Path" [("elements", .tuple (outlines elements))]
  | .variableItem name renamed =>
    .node "Variable" [("name", .name name), ("alias", .scalar renamed)]
  | .expressionItem expr renamed =>
    .node "Expression" [("expr", expr.outline), ("alias", .scalar renamed)]
  | .assignment subject key value =>
    .node "Assignment" [("variable", .name subject), ("key", .name key), ("value", value.outline)]
  | .orderItem expr direction =>
    .node "OrderItem" [("expr", expr.outline), ("direction", .name direction)]
  | .matchClause pattern optional =>
    .node "Match" [("pattern", pattern.outline), ("optional", .scalar optional)]
  | .whereClause condition => .node "Where" [("condition", condition.outline)]
  | .createClause pattern => .node "Create" [("pattern", pattern.outline)]
  | .deleteClause names detach =>
    .node "Delete" [("variables", .tuple (names.map .name)), ("detach", .scalar detach)]
  | .setClause assignments => .node "Set" [("assignments", .tuple (outlines assignments))]
  | .withClause items => .node "With" [("expressions", .tuple (outlines items))]
  | .returnClause items => .node "Return" [("expressions", .tuple (outlines items))]
  | .orderByClause items => .node "OrderBy" [("items", .tuple (outlines items))]
  | .skipClause count => .node "Skip" [("count", .scalar count)]
  | .limitClause count => .node "Limit" [("count", .scalar count)]
  | .query clauses parameters =>
    .node "Query" [("clauses", .tuple (outlines clauses)), ("parameters", .parameters parameters)]
  | .scalar value => .scalar value
  | .tuple items => .tuple (outlines items)
  | .mapping entries => .mapping (outlineEntries entries)

def outlines : List Tree → List Outline
  | [] => []
  | t :: rest => t.outline :: outlines rest

/-- The outline of properties that may be absent. -/
def outlineProperties : Option (List (String × Tree)) → Outline
  | none => .scalar .null
  | some entries => .properties (outlineFields entries)

/-- The outlines of trees under names. -/
def outlineFields : List (String × Tree) → List (String × Outline)
  | [] => []
  | (name, t) :: rest => (name, t.outline) :: outlineFields rest

/-- The outlines of trees under keys. -/
def outlineEntries : List (Value × Tree) → List (Value × Outline)
  | [] => []
  | (key, t) :: rest => (key, t.outline) :: outlineEntries rest

end

namespace Outline

/-- A mapping that cannot be written to, as messages show it. -/
def displayReadOnly (shown : String) : String :=
  s!"mappingproxy({shown})"

mutual

def display : Outline → String
  | .node kind fields => s!"{kind}({Value.commaList (displayFields fields)})"
  | .tuple items => Value.displayTuple (displayItems items)
  | .properties entries => displayReadOnly (Value.braced (displayProperties entries))
  | .mapping entries => Value.braced (displayEntries entries)
  | .parameters entries => displayReadOnly (Value.display (.map entries))
  | .data value => value.display
  | .scalar value => value.display

/-- Fields as messages show them. -/
def displayFields : List (String × Outline) → List String
  | [] => []
  | (name, item) :: rest => s!"{name}={display item}" :: displayFields rest

/-- Items as messages show them. -/
def displayItems : List Outline → List String
  | [] => []
  | item :: rest => display item :: displayItems rest

/-- Properties as messages show them. -/
def displayProperties : List (String × Outline) → List String
  | [] => []
  | (name, item) :: rest => s!"{Text.display name}: {display item}" :: displayProperties rest

/-- Entries as messages show them. -/
def displayEntries : List (Value × Outline) → List String
  | [] => []
  | (key, item) :: rest => s!"{key.display}: {display item}" :: displayEntries rest

end

mutual

/-- The data of an outline: a node is an object whose first field is its kind. -/
def toData : Outline → Value
  | .node kind fields => .map ((.text "kind", .text kind) :: fieldData fields)
  | .tuple items => .list (itemData items)
  | .properties entries => .map (fieldData entries)
  | .mapping entries => .map (entryData entries)
  | .parameters entries => Value.plain (.map entries)
  | .data value => value.plain
  | .scalar value => value

def fieldData : List (String × Outline) → List (Value × Value)
  | [] => []
  | (name, item) :: rest => (.text name, toData item) :: fieldData rest

def itemData : List Outline → List Value
  | [] => []
  | item :: rest => toData item :: itemData rest

def entryData : List (Value × Outline) → List (Value × Value)
  | [] => []
  | (key, item) :: rest => (key, toData item) :: entryData rest

end

def scalarDocument (value : Value) : Json :=
  (value.document? false).getD .null

mutual

/-- The document of an outline, in which values keep their types. -/
def document : Outline → Json
  | .node kind fields => .object (("kind", .text kind) :: fieldDocuments fields)
  | .tuple items => .array (itemDocuments items)
  | .properties entries => .object (fieldDocuments entries)
  | .mapping entries => .object (entryDocuments entries)
  | .parameters entries => Value.ofTaggedEntries "mappingproxy" (Value.taggedEntries entries)
  | .data value => value.tagged
  | .scalar value => scalarDocument value

def fieldDocuments : List (String × Outline) → List (String × Json)
  | [] => []
  | (name, item) :: rest => (name, document item) :: fieldDocuments rest

def itemDocuments : List Outline → List Json
  | [] => []
  | item :: rest => document item :: itemDocuments rest

/-- The documents of entries, under the names that their keys become. -/
def entryDocuments : List (Value × Outline) → List (String × Json)
  | [] => []
  | (key, item) :: rest =>
    (key.keyName?.getD key.asText, document item) :: entryDocuments rest

end

end Outline

namespace Tree

def display (t : Tree) : String :=
  t.outline.display

/-- The compact text with sorted fields that identifies a tree. -/
def canonicalText (t : Tree) : String :=
  t.outline.document.canonicalText

end Tree

end GraphQuery
