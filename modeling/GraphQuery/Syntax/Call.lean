import GraphQuery.Syntax.Builders
import GraphQuery.Syntax.Trusted

/-! # Calling builders by name

Trees can be built by calls. Every builder has a name and parameters, of which the first few are
required; arguments are given in order or by name. A call with too many arguments, too few of them
or unknown ones is refused.
-/

namespace GraphQuery.Build

/-- Why a call builds nothing. -/
inductive CallFault where
  | unknownBuilder
  | wrongArguments
  deriving DecidableEq, Repr

/-- The arguments of a call, under the names of their parameters. -/
structure Arguments where
  given : List (String × Tree)

namespace Arguments

/-- An argument as a tree. What is not given is null. -/
def tree (arguments : Arguments) (parameter : String) : Tree :=
  (arguments.given.lookup parameter).getD (.scalar .null)

def name (arguments : Arguments) (parameter : String) : String :=
  (arguments.tree parameter).asName

/-- An argument as a name that may be absent. -/
def name? (arguments : Arguments) (parameter : String) : Option String :=
  (arguments.tree parameter).asName?

def value (arguments : Arguments) (parameter : String) : Value :=
  (arguments.tree parameter).plainValue

/-- An argument that says yes or no. It says no if it is not given. -/
def flag (arguments : Arguments) (parameter : String) : Value :=
  ((arguments.given.lookup parameter).map Tree.plainValue).getD (.bool false)

/-- An argument as properties that may be absent. -/
def properties? (arguments : Arguments) (parameter : String) : Option (List (String × Tree)) :=
  (arguments.tree parameter).asProperties?

def entries (arguments : Arguments) (parameter : String) : List (Value × Value) :=
  match arguments.value parameter with
  | .map entries => entries
  | _ => []

/-- The items of an argument: a text gives its characters, and a map its keys. -/
def items (arguments : Arguments) (parameter : String) : List Tree :=
  match arguments.tree parameter with
  | .tuple items => items
  | .scalar (.text s) => s.toList.map fun c => .scalar (.text (String.singleton c))
  | .mapping entries => entries.map fun entry => .scalar entry.1
  | _ => []

def names (arguments : Arguments) (parameter : String) : List String :=
  (arguments.items parameter).map Tree.asName

end Arguments

/-- A builder: its parameters, how many of them are required, and what it builds. -/
structure Builder where
  parameters : List String
  required : Nat
  build : Arguments → Tree

def unary (parameter : String) (build : Tree → Tree) : Builder :=
  ⟨[parameter], 1, fun arguments => build (arguments.tree parameter)⟩

/-- A builder that takes the items of an argument. -/
def collection (parameter : String) (build : List Tree → Tree) : Builder :=
  ⟨[parameter], 1, fun arguments => build (arguments.items parameter)⟩

/-- A builder that takes a left and a right tree. -/
def binary (build : Tree → Tree → Tree) : Builder :=
  ⟨["left", "right"], 2, fun arguments => build (arguments.tree "left") (arguments.tree "right")⟩

def expressionBuilders : List (String × Builder) := [
  ("literal", ⟨["value"], 1, fun arguments => .literal (arguments.value "value")⟩),
  ("prop", ⟨["variable", "key"], 2, fun arguments =>
    .property (arguments.name "variable") (arguments.name "key")⟩),
  ("param", ⟨["name"], 1, fun arguments => .parameter (arguments.name "name")⟩),
  ("binary_op", ⟨["op", "left", "right"], 3, fun arguments =>
    .binary (arguments.name "op") (arguments.tree "left") (arguments.tree "right")⟩),
  ("unary_op", ⟨["op", "operand"], 2, fun arguments =>
    .unary (arguments.name "op") (arguments.tree "operand")⟩),
  ("and", binary conjunction), ("or", binary disjunction), ("not", unary "operand" negation),
  ("eq", binary equal), ("neq", binary unequal), ("lt", binary less), ("lte", binary atMost),
  ("gt", binary greater), ("gte", binary atLeast), ("is_null", unary "operand" isNull),
  ("is_not_null", unary "operand" isNotNull)]

def partBuilders : List (String × Builder) := [
  ("node", ⟨["variable", "labels", "properties"], 1, fun arguments =>
    .node (arguments.name "variable") (arguments.names "labels")
      (arguments.properties? "properties")⟩),
  ("relationship", ⟨["direction", "type", "variable", "properties"], 1, fun arguments =>
    .relationship (arguments.name "direction") (arguments.name? "type")
      (arguments.name? "variable") (arguments.properties? "properties")⟩),
  ("var", ⟨["name", "alias"], 1, fun arguments =>
    .variableItem (arguments.name "name") (arguments.value "alias")⟩),
  ("expr", ⟨["expression", "alias"], 1, fun arguments =>
    .expressionItem (arguments.tree "expression") (arguments.value "alias")⟩),
  ("assign", ⟨["variable", "key", "value"], 3, fun arguments =>
    .assignment (arguments.name "variable") (arguments.name "key") (arguments.tree "value")⟩),
  ("asc", unary "expression" ascending), ("desc", unary "expression" descending)]

def clauseBuilders : List (String × Builder) := [
  ("match", ⟨["pattern", "optional"], 1, fun arguments =>
    .matchClause (arguments.tree "pattern") (arguments.flag "optional")⟩),
  ("optional_match", unary "pattern" maybe), ("where", unary "condition" .whereClause),
  ("create", unary "pattern" .createClause),
  ("delete", ⟨["variables", "detach"], 1, fun arguments =>
    .deleteClause (arguments.names "variables") (arguments.flag "detach")⟩),
  ("set", collection "assignments" .setClause),
  ("with", collection "expressions" fun items => .withClause (items.map itemOf)),
  ("return", collection "expressions" fun items => .returnClause (items.map itemOf)),
  ("order_by", collection "items" .orderByClause),
  ("skip", unary "count" fun count => .skipClause count.plainValue),
  ("limit", unary "count" fun count => .limitClause count.plainValue),
  ("query", ⟨["clauses", "parameters"], 1, fun arguments =>
    .query (arguments.items "clauses") (arguments.entries "parameters")⟩)]

/-- All builders with a fixed number of parameters. -/
def builders : List (String × Builder) :=
  expressionBuilders ++ partBuilders ++ clauseBuilders

/-- Whether an argument is a value that is taken as it stands, and no tree. -/
def takesValue (builder parameter : String) : Bool :=
  builder = "literal" || parameter = "parameters"

/-- The arguments of a call under the names of their parameters, if they suit the builder. -/
def Builder.assign? {Content : Type} (builder : Builder) (inOrder : List Content)
    (named : List (String × Content)) : Option (List (String × Content)) :=
  let given := builder.parameters.zip inOrder ++ named
  let free := builder.parameters.drop inOrder.length
  let suits := inOrder.length ≤ builder.parameters.length &&
    named.all (fun entry => free.contains entry.1) &&
    (builder.parameters.take builder.required).all fun parameter => (given.lookup parameter).isSome
  if suits then some given else none

def builder? (name : String) : Except CallFault Builder :=
  (builders.lookup name).elim (.error .unknownBuilder) .ok

/-- Builds a path of its elements, or a call of the function that comes first. -/
def ofList (name : String) (items : List Tree) : Except CallFault Tree :=
  match name, items with
  | "path", elements => .ok (.path elements)
  | "func", function :: args => .ok (.call function.asName args)
  | "func", [] => .error .wrongArguments
  | _, _ => .error .unknownBuilder

end GraphQuery.Build
