import GraphQuery.Syntax.Tree

/-! # Building trees

Shorthands for the trees that queries are written with most. A bare name among the items of a
`RETURN` or `WITH` clause stands for the variable of that name.
-/

namespace GraphQuery.Build

def conjunction (left right : Tree) : Tree := .binary "AND" left right

def disjunction (left right : Tree) : Tree := .binary "OR" left right

def negation (operand : Tree) : Tree := .unary "NOT" operand

def equal (left right : Tree) : Tree := .binary "=" left right

def unequal (left right : Tree) : Tree := .binary "<>" left right

def less (left right : Tree) : Tree := .binary "<" left right

def atMost (left right : Tree) : Tree := .binary "<=" left right

def greater (left right : Tree) : Tree := .binary ">" left right

def atLeast (left right : Tree) : Tree := .binary ">=" left right

/-- Whether an expression has no value. -/
def isNull (operand : Tree) : Tree := .unary "IS NULL" operand

/-- Whether an expression has a value. -/
def isNotNull (operand : Tree) : Tree := .unary "IS NOT NULL" operand

def node (name : String) (labels : List String) (properties : List (String × Tree)) : Tree :=
  .node name labels (some properties)

def labelled (name : String) (labels : List String) : Tree :=
  .node name labels none

def item (name : String) : Tree :=
  .variableItem name .null

/-- An expression as an item, under another name. -/
def itemAs (expr : Tree) (renamed : String) : Tree :=
  .expressionItem expr (.text renamed)

/-- A pattern that has to be found. -/
def require (pattern : Tree) : Tree :=
  .matchClause pattern (.bool false)

def maybe (pattern : Tree) : Tree :=
  .matchClause pattern (.bool true)

/-- An item of an `ORDER BY` clause, smallest first. -/
def ascending (expr : Tree) : Tree := .orderItem expr "ASC"

/-- An item of an `ORDER BY` clause, largest first. -/
def descending (expr : Tree) : Tree := .orderItem expr "DESC"

/-- The item that a tree stands for among items: a bare text is a variable. -/
def itemOf : Tree → Tree
  | .scalar (.text name) => item name
  | t => t

end GraphQuery.Build
