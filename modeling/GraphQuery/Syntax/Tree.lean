import GraphQuery.Value.Basic

/-! # Query trees

Expressions, patterns, return items, clauses and whole queries share one type of tree. A tree is
plain data: nothing stops a clause from standing where an expression belongs, and everything that
reads trees says what it does with a tree in the wrong place. Three constructors stand for what is
no node at all but may be met in the place of one: a scalar, a tuple and a mapping.
-/

namespace GraphQuery

/-- Query trees. Names, operators and directions may be any text. -/
inductive Tree where
  /-- A value written into the query. -/
  | literal (value : Value)
  /-- A property of a variable. -/
  | property (subject key : String)
  /-- A value passed beside the query. -/
  | parameter (name : String)
  | binary (op : String) (left right : Tree)
  | unary (op : String) (operand : Tree)
  | call (name : String) (args : List Tree)
  | node (name : String) (labels : List String) (properties : Option (List (String × Tree)))
  | relationship (direction : String) (type name : Option String)
      (properties : Option (List (String × Tree)))
  | path (elements : List Tree)
  | variableItem (name : String) (renamed : Value)
  | expressionItem (expr : Tree) (renamed : Value)
  | assignment (subject key : String) (value : Tree)
  | orderItem (expr : Tree) (direction : String)
  | matchClause (pattern : Tree) (optional : Value)
  | whereClause (condition : Tree)
  | createClause (pattern : Tree)
  | deleteClause (names : List String) (detach : Value)
  | setClause (assignments : List Tree)
  | withClause (items : List Tree)
  | returnClause (items : List Tree)
  | orderByClause (items : List Tree)
  | skipClause (count : Value)
  | limitClause (count : Value)
  | query (clauses : List Tree) (parameters : List (Value × Value))
  /-- A value that is no node. -/
  | scalar (value : Value)
  /-- Several trees that are no node. -/
  | tuple (items : List Tree)
  /-- Trees under keys that are no node. -/
  | mapping (entries : List (Value × Tree))
  deriving Inhabited

namespace Tree

def kind? : Tree → Option String
  | .literal _ => some "Literal"
  | .property _ _ => some "Property"
  | .parameter _ => some "Parameter"
  | .binary _ _ _ => some "BinaryOp"
  | .unary _ _ => some "UnaryOp"
  | .call _ _ => some "Function"
  | .node _ _ _ => some "Node"
  | .relationship _ _ _ _ => some "Relationship"
  | .path _ => some "Path"
  | .variableItem _ _ => some "Variable"
  | .expressionItem _ _ => some "Expression"
  | .assignment _ _ _ => some "Assignment"
  | .orderItem _ _ => some "OrderItem"
  | .matchClause _ _ => some "Match"
  | .whereClause _ => some "Where"
  | .createClause _ => some "Create"
  | .deleteClause _ _ => some "Delete"
  | .setClause _ => some "Set"
  | .withClause _ => some "With"
  | .returnClause _ => some "Return"
  | .orderByClause _ => some "OrderBy"
  | .skipClause _ => some "Skip"
  | .limitClause _ => some "Limit"
  | .query _ _ => some "Query"
  | .scalar _ => none
  | .tuple _ => none
  | .mapping _ => none

def isExpression : Tree → Bool
  | .literal _ | .property _ _ | .parameter _ | .binary _ _ _ | .unary _ _ | .call _ _ => true
  | _ => false

/-- Whether a tree may be an element of a path. -/
def isPathElement : Tree → Bool
  | .node _ _ _ | .relationship _ _ _ _ => true
  | _ => false

def isPattern : Tree → Bool
  | .node _ _ _ | .relationship _ _ _ _ | .path _ => true
  | _ => false

/-- Whether a tree is an item of a `RETURN` or `WITH` clause. -/
def isReturnItem : Tree → Bool
  | .variableItem _ _ | .expressionItem _ _ => true
  | _ => false

/-- Whether a tree is an item of a `SET` clause. -/
def isAssignment : Tree → Bool
  | .assignment _ _ _ => true
  | _ => false

/-- Whether a tree is an item of an `ORDER BY` clause. -/
def isOrderItem : Tree → Bool
  | .orderItem _ _ => true
  | _ => false

/-- The place of a clause in a normal query, for what is a clause. -/
def rank? : Tree → Option Nat
  | .matchClause _ _ => some 1
  | .whereClause _ => some 2
  | .createClause _ => some 3
  | .deleteClause _ _ => some 4
  | .setClause _ => some 5
  | .withClause _ => some 6
  | .returnClause _ => some 7
  | .orderByClause _ => some 8
  | .skipClause _ => some 9
  | .limitClause _ => some 10
  | _ => none

def isClause (t : Tree) : Bool :=
  t.rank?.isSome

end Tree

/-- A query: its clauses and the values of its parameters. -/
structure Query where
  clauses : List Tree
  parameters : List (Value × Value)
  deriving Inhabited

namespace Query

def toTree (q : Query) : Tree :=
  .query q.clauses q.parameters

def ofTree? : Tree → Option Query
  | .query clauses parameters => some ⟨clauses, parameters⟩
  | _ => none

@[simp] theorem ofTree?_toTree (q : Query) : ofTree? q.toTree = some q := rfl

end Query

end GraphQuery
