import GraphQuery.Syntax.Outline

/-! # The values in a tree

A caller writes values into a query as literals, and counts, names behind `AS` and flags are values
too. Only what stands in its place counts as a literal of a query: a query within a query, a tuple or
a mapping is passed over.
-/

namespace GraphQuery

namespace Tree

mutual

/-- The literals of a tree, from left to right. -/
def literals : Tree → List Value
  | .literal value => [value]
  | .binary _ left right => literals left ++ literals right
  | .unary _ operand => literals operand
  | .call _ args => literalsOfItems args
  | .node _ _ properties => literalsOfProperties properties
  | .relationship _ _ _ properties => literalsOfProperties properties
  | .path elements => literalsOfItems elements
  | .expressionItem expr _ => literals expr
  | .assignment _ _ value => literals value
  | .orderItem expr _ => literals expr
  | .matchClause pattern _ => literals pattern
  | .whereClause condition => literals condition
  | .createClause pattern => literals pattern
  | .setClause assignments => literalsOfItems assignments
  | .withClause items => literalsOfItems items
  | .returnClause items => literalsOfItems items
  | .orderByClause items => literalsOfItems items
  | _ => []

def literalsOfItems : List Tree → List Value
  | [] => []
  | t :: rest => literals t ++ literalsOfItems rest

def literalsOfProperties : Option (List (String × Tree)) → List Value
  | none => []
  | some entries => literalsOfFields entries

/-- The literals of trees under names. -/
def literalsOfFields : List (String × Tree) → List Value
  | [] => []
  | (_, t) :: rest => literals t ++ literalsOfFields rest

end

mutual

def mapLiterals (f : Value → Value) : Tree → Tree
  | .literal value => .literal (f value)
  | .binary op left right => .binary op (mapLiterals f left) (mapLiterals f right)
  | .unary op operand => .unary op (mapLiterals f operand)
  | .call name args => .call name (mapLiteralsOfItems f args)
  | .node name labels properties => .node name labels (mapLiteralsOfProperties f properties)
  | .relationship direction type name properties =>
    .relationship direction type name (mapLiteralsOfProperties f properties)
  | .path elements => .path (mapLiteralsOfItems f elements)
  | .expressionItem expr renamed => .expressionItem (mapLiterals f expr) renamed
  | .assignment subject key value => .assignment subject key (mapLiterals f value)
  | .orderItem expr direction => .orderItem (mapLiterals f expr) direction
  | .matchClause pattern optional => .matchClause (mapLiterals f pattern) optional
  | .whereClause condition => .whereClause (mapLiterals f condition)
  | .createClause pattern => .createClause (mapLiterals f pattern)
  | .setClause assignments => .setClause (mapLiteralsOfItems f assignments)
  | .withClause items => .withClause (mapLiteralsOfItems f items)
  | .returnClause items => .returnClause (mapLiteralsOfItems f items)
  | .orderByClause items => .orderByClause (mapLiteralsOfItems f items)
  | t => t

/-- Several trees with their literals replaced. -/
def mapLiteralsOfItems (f : Value → Value) : List Tree → List Tree
  | [] => []
  | t :: rest => mapLiterals f t :: mapLiteralsOfItems f rest

/-- Properties with their literals replaced. -/
def mapLiteralsOfProperties (f : Value → Value) :
    Option (List (String × Tree)) → Option (List (String × Tree))
  | none => none
  | some entries => some (mapLiteralsOfFields f entries)

/-- Trees under names with their literals replaced. -/
def mapLiteralsOfFields (f : Value → Value) : List (String × Tree) → List (String × Tree)
  | [] => []
  | (name, t) :: rest => (name, mapLiterals f t) :: mapLiteralsOfFields f rest

end

/-- The values other than literals that the text of a clause shows. -/
def shownScalars : Tree → List Value
  | .skipClause count => [count]
  | .limitClause count => [count]
  | .withClause items => items.filterMap renamed?
  | .returnClause items => items.filterMap renamed?
  | _ => []
where
  /-- What stands behind `AS`. -/
  renamed? : Tree → Option Value
    | .variableItem _ renamed => some renamed
    | .expressionItem _ renamed => some renamed
    | _ => none

end Tree

namespace Outline

mutual

/-- The values that the document of an outline shows. -/
def values : Outline → List Value
  | .node _ fields => fieldValues fields
  | .tuple items => itemValues items
  | .properties entries => fieldValues entries
  | .mapping entries => entryValues entries
  | .parameters entries => entries.flatMap fun entry => [entry.1, entry.2]
  | .data value => [value]
  | .scalar value => [value]

def fieldValues : List (String × Outline) → List Value
  | [] => []
  | (_, item) :: rest => values item ++ fieldValues rest

def itemValues : List Outline → List Value
  | [] => []
  | item :: rest => values item ++ itemValues rest

/-- The keys of entries and the values under them. -/
def entryValues : List (Value × Outline) → List Value
  | [] => []
  | (key, item) :: rest => key :: values item ++ entryValues rest

end

end Outline

end GraphQuery
