import GraphQuery.Syntax.Operator
import GraphQuery.Syntax.Outline

/-! # Reading trees from data

Data names the kind of every node. Reading it checks each field: that trees stand where they
belong, that operators and directions are known, that counts are not negative. Fields are checked
in the order in which a node declares them, and an invalid field is reported before a missing one.
Fields that a kind does not have are skipped.
-/

namespace GraphQuery

/-- Why data is no tree. -/
inductive DecodeFault where
  | notAnObject (typeName : String)
  | unknownKind (kind : Value)
  | invalidField (kind field : String) (content : Tree)
  | missingFields (kind : String) (fields : List String)

namespace DecodeFault

/-- Names in an enumeration: quoted, with commas, and with an "and" before the last one. -/
def enumeration (names : List String) : String :=
  match names.map Text.display with
  | [] => ""
  | [a] => a
  | [a, b] => s!"{a} and {b}"
  | shown => Value.commaList shown.dropLast ++ ", and " ++ shown.getLastD ""

def message : DecodeFault → String
  | .notAnObject typeName => s!"Expected an object with a 'kind' key, got {typeName}"
  | .unknownKind kind => s!"Unknown AST kind: {kind.display}"
  | .invalidField kind field content => s!"Invalid {kind}.{field}: {content.display}"
  | .missingFields kind fields =>
    let arguments := if fields.length = 1 then "argument" else "arguments"
    s!"Invalid {kind} node: {kind}.__init__() missing {fields.length} required positional " ++
      s!"{arguments}: {enumeration fields}"

end DecodeFault

/-! ## What a field may hold -/

namespace FieldContent

def name? : Tree → Option String
  | .scalar (.text s) => some s
  | _ => none

def optionalName? : Tree → Option (Option String)
  | .scalar .null => some none
  | .scalar (.text s) => some (some s)
  | _ => none

def alternative? : Tree → Option Value
  | .scalar .null => some .null
  | .scalar (.text s) => some (.text s)
  | _ => none

def flag? : Tree → Option Value
  | .scalar (.bool b) => some (.bool b)
  | _ => none

def count? : Tree → Option Value
  | .scalar (.int i) => if 0 ≤ i then some (.int i) else none
  | _ => none

def choice? (known : String → Bool) : Tree → Option String
  | .scalar (.text s) => if known s then some s else none
  | _ => none

def tree? (belongs : Tree → Bool) (t : Tree) : Option Tree :=
  if belongs t then some t else none

def trees? (belongs : Tree → Bool) : Tree → Option (List Tree)
  | .tuple items => if items.all belongs then some items else none
  | _ => none

def names? : Tree → Option (List String)
  | .tuple items => items.mapM name?
  | _ => none

def property? : Value × Tree → Option (String × Tree)
  | (.text key, t) => if t.isExpression then some (key, t) else none
  | _ => none

/-- Properties: null, or expressions under names. -/
def properties? : Tree → Option (Option (List (String × Tree)))
  | .scalar .null => some none
  | .mapping entries => (entries.mapM property?).map some
  | _ => none

def parameters? : Value → Option (List (Value × Value))
  | .map entries => if entries.all (fun entry => entry.1.text?.isSome) then some entries else none
  | _ => none

end FieldContent

/-! ## Nodes -/

/-- The fields of an object: the data as it stands, and what each field reads as. -/
structure ObjectFields where
  kind : String
  entries : List (Value × Value)
  decoded : List (Value × Except DecodeFault Tree)

namespace ObjectFields

def find? (name : String) : List (Value × Except DecodeFault Tree) →
    Option (Except DecodeFault Tree)
  | [] => none
  | (key, item) :: rest => if key.isText name then some item else find? name rest

/-- The content of a field, if it is present. -/
def fetch {Content : Type} (fields : ObjectFields) (name : String)
    (accept : Tree → Option Content) : Except DecodeFault (Option Content) :=
  match find? name fields.decoded with
  | none => .ok none
  | some (.error fault) => .error fault
  | some (.ok t) =>
    match accept t with
    | some content => .ok (some content)
    | none => .error (.invalidField fields.kind name t)

/-- The fault of missing fields, given which of the required ones are present. -/
def missing {Content : Type} (fields : ObjectFields) (required : List (String × Bool)) :
    Except DecodeFault Content :=
  .error (.missingFields fields.kind ((required.filter fun field => !field.2).map Prod.fst))

def one {Content : Type} (fields : ObjectFields) (name : String)
    (content : Option Content) (build : Content → Tree) : Except DecodeFault Tree :=
  match content with
  | some found => .ok (build found)
  | none => fields.missing [(name, false)]

def two {First Second : Type} (fields : ObjectFields) (firstName secondName : String)
    (first : Option First) (second : Option Second) (build : First → Second → Tree) :
    Except DecodeFault Tree :=
  match first, second with
  | some a, some b => .ok (build a b)
  | a, b => fields.missing [(firstName, a.isSome), (secondName, b.isSome)]

def three {First Second Third : Type} (fields : ObjectFields)
    (firstName secondName thirdName : String) (first : Option First) (second : Option Second)
    (third : Option Third) (build : First → Second → Third → Tree) : Except DecodeFault Tree :=
  match first, second, third with
  | some a, some b, some c => .ok (build a b c)
  | a, b, c =>
    fields.missing [(firstName, a.isSome), (secondName, b.isSome), (thirdName, c.isSome)]

open FieldContent

/-- The literal of an object. Its value is kept as it stands. -/
def literal (fields : ObjectFields) : Except DecodeFault Tree :=
  fields.one "value" (Value.lookup "value" fields.entries) .literal

/-- The query of an object. Its parameters are kept as they stand. -/
def query (fields : ObjectFields) : Except DecodeFault Tree := do
  let clauses ← fields.fetch "clauses" (trees? Tree.isClause)
  match Value.lookup "parameters" fields.entries with
  | none => .ok (.query (clauses.getD []) [])
  | some content =>
    match parameters? content with
    | some parameters => .ok (.query (clauses.getD []) parameters)
    | none => .error (.invalidField fields.kind "parameters" (.scalar content))

/-- The expression of an object, for the kinds that are expressions. -/
def expression? (fields : ObjectFields) : Option (Except DecodeFault Tree) :=
  match fields.kind with
  | "Literal" => some fields.literal
  | "Property" => some do
    let subject ← fields.fetch "variable" name?
    let key ← fields.fetch "key" name?
    fields.two "variable" "key" subject key .property
  | "Parameter" => some do
    let name ← fields.fetch "name" name?
    fields.one "name" name .parameter
  | "BinaryOp" => some do
    let op ← fields.fetch "op" (choice? binaryOperators.contains)
    let left ← fields.fetch "left" (tree? Tree.isExpression)
    let right ← fields.fetch "right" (tree? Tree.isExpression)
    fields.three "op" "left" "right" op left right .binary
  | "UnaryOp" => some do
    let op ← fields.fetch "op" (choice? unaryOperators.contains)
    let operand ← fields.fetch "operand" (tree? Tree.isExpression)
    fields.two "op" "operand" op operand .unary
  | "Function" => some do
    let name ← fields.fetch "name" name?
    let args ← fields.fetch "args" (trees? Tree.isExpression)
    fields.one "name" name fun name => .call name (args.getD [])
  | _ => none

/-- The pattern of an object, for the kinds that are patterns. -/
def pattern? (fields : ObjectFields) : Option (Except DecodeFault Tree) :=
  match fields.kind with
  | "Node" => some do
    let name ← fields.fetch "variable" name?
    let labels ← fields.fetch "labels" names?
    let properties ← fields.fetch "properties" properties?
    fields.one "variable" name fun name => .node name (labels.getD []) (properties.getD none)
  | "Relationship" => some do
    let direction ← fields.fetch "direction" (choice? directions.contains)
    let type ← fields.fetch "type" optionalName?
    let name ← fields.fetch "variable" optionalName?
    let properties ← fields.fetch "properties" properties?
    fields.one "direction" direction fun direction =>
      .relationship direction (type.getD none) (name.getD none) (properties.getD none)
  | "Path" => some do
    let elements ← fields.fetch "elements" (trees? Tree.isPathElement)
    .ok (.path (elements.getD []))
  | _ => none

/-- The item of an object, for the kinds that are items of clauses. -/
def item? (fields : ObjectFields) : Option (Except DecodeFault Tree) :=
  match fields.kind with
  | "Variable" => some do
    let name ← fields.fetch "name" name?
    let renamed ← fields.fetch "alias" alternative?
    fields.one "name" name fun name => .variableItem name (renamed.getD .null)
  | "Expression" => some do
    let expr ← fields.fetch "expr" (tree? Tree.isExpression)
    let renamed ← fields.fetch "alias" alternative?
    fields.one "expr" expr fun expr => .expressionItem expr (renamed.getD .null)
  | "Assignment" => some do
    let subject ← fields.fetch "variable" name?
    let key ← fields.fetch "key" name?
    let value ← fields.fetch "value" (tree? Tree.isExpression)
    fields.three "variable" "key" "value" subject key value .assignment
  | "OrderItem" => some do
    let expr ← fields.fetch "expr" (tree? Tree.isExpression)
    let direction ← fields.fetch "direction" (choice? isSortDirection)
    fields.one "expr" expr fun expr => .orderItem expr (direction.getD "ASC")
  | _ => none

/-- The clause of an object, for the kinds that are clauses. -/
def clause? (fields : ObjectFields) : Option (Except DecodeFault Tree) :=
  match fields.kind with
  | "Match" => some do
    let pattern ← fields.fetch "pattern" (tree? Tree.isPattern)
    let optional ← fields.fetch "optional" flag?
    fields.one "pattern" pattern fun pattern =>
      .matchClause pattern (optional.getD (.bool false))
  | "Where" => some do
    let condition ← fields.fetch "condition" (tree? Tree.isExpression)
    fields.one "condition" condition .whereClause
  | "Create" => some do
    let pattern ← fields.fetch "pattern" (tree? Tree.isPattern)
    fields.one "pattern" pattern .createClause
  | "Delete" => some do
    let names ← fields.fetch "variables" names?
    let detach ← fields.fetch "detach" flag?
    fields.one "variables" names fun names => .deleteClause names (detach.getD (.bool false))
  | "Set" => some do
    let assignments ← fields.fetch "assignments" (trees? Tree.isAssignment)
    fields.one "assignments" assignments .setClause
  | "With" => some do
    let items ← fields.fetch "expressions" (trees? Tree.isReturnItem)
    fields.one "expressions" items .withClause
  | "Return" => some do
    let items ← fields.fetch "expressions" (trees? Tree.isReturnItem)
    fields.one "expressions" items .returnClause
  | "OrderBy" => some do
    let items ← fields.fetch "items" (trees? Tree.isOrderItem)
    fields.one "items" items .orderByClause
  | "Skip" => some do
    let count ← fields.fetch "count" count?
    fields.one "count" count .skipClause
  | "Limit" => some do
    let count ← fields.fetch "count" count?
    fields.one "count" count .limitClause
  | _ => none

/-- The node of an object, if its kind is known. -/
def node? (fields : ObjectFields) : Option (Except DecodeFault Tree) :=
  if fields.kind = "Query" then some fields.query
  else fields.expression? <|> fields.pattern? <|> fields.item? <|> fields.clause?

end ObjectFields

namespace Tree

/-- The node of an object with the given entries. -/
def ofEntries (entries : List (Value × Value))
    (decoded : List (Value × Except DecodeFault Tree)) : Except DecodeFault Tree :=
  match Value.lookup "kind" entries with
  | some (.text kind) =>
    (ObjectFields.node? ⟨kind, entries, decoded⟩).getD (.error (.unknownKind (.text kind)))
  | some kind => .error (.unknownKind kind)
  | none => .error (.unknownKind .null)

/-- The trees of all entries, or the first fault. -/
def allEntries : List (Value × Except DecodeFault Tree) →
    Except DecodeFault (List (Value × Tree))
  | [] => .ok []
  | (key, item) :: rest => do
    let t ← item
    let others ← allEntries rest
    .ok ((key, t) :: others)

mutual

/-- What the content of a field reads as: an object with a kind is a node, and other objects and
lists are read item by item. -/
def ofField : Value → Except DecodeFault Tree
  | .map entries =>
    match Value.lookup "kind" entries with
    | some (.text _) => ofEntries entries (ofFieldEntries entries)
    | _ => (allEntries (ofFieldEntries entries)).map .mapping
  | .list items => (ofFieldItems items).map .tuple
  | .tuple items => .ok (.tuple (items.map .scalar))
  | other => .ok (.scalar other)

def ofFieldItems : List Value → Except DecodeFault (List Tree)
  | [] => .ok []
  | item :: rest => do
    let t ← ofField item
    let others ← ofFieldItems rest
    .ok (t :: others)

/-- What the entries of an object read as, each on its own. -/
def ofFieldEntries : List (Value × Value) → List (Value × Except DecodeFault Tree)
  | [] => []
  | (key, item) :: rest => (key, ofField item) :: ofFieldEntries rest

end

def ofData : Value → Except DecodeFault Tree
  | .map entries => ofEntries entries (ofFieldEntries entries)
  | other => .error (.notAnObject other.typeName)

end Tree

end GraphQuery
