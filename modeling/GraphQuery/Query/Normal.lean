import GraphQuery.Syntax.Fault
import GraphQuery.Syntax.Operator
import GraphQuery.Value.Order

/-! # Normal queries

Queries that differ only in the order of what has no order share one normal query. Double negations
go away. The operands of a chain of one commutative operator are gathered, sorted by their canonical
texts and chained again to the right. Labels, properties, the keys of literal maps and parameters
are sorted. Clauses are sorted by their place in a query and assignments by what they assign to;
both sorts are stable, and the order of everything else is kept. Values stand for themselves here;
`Query.normalCopy` is the normal form with copies of them, which not every value has.
-/

namespace GraphQuery

namespace Tree

/-- Applies a unary operator to a normal operand: a second negation cancels the first. -/
def applyUnary (op : String) : Tree → Tree
  | .unary inner operand =>
    if op = "NOT" && inner = "NOT" then operand else .unary op (.unary inner operand)
  | operand => .unary op operand

/-- The operands of a chain of an operator, from left to right. -/
def operands (op : String) : Tree → List Tree
  | .binary other left right =>
    if other = op then operands op left ++ operands op right else [.binary other left right]
  | t => [t]

/-- Chains operands to the right. There is always at least one. -/
def chain (op : String) : List Tree → Tree
  | [] => .scalar .null
  | [t] => t
  | t :: rest => .binary op t (chain op rest)

/-- Applies a binary operator to normal operands: the operands of a commutative operator are
gathered and sorted. -/
def applyBinary (op : String) (left right : Tree) : Tree :=
  if isCommutative op then
    chain op (sortByText canonicalText (operands op left ++ operands op right))
  else .binary op left right

mutual

def normalExpression : Tree → Except TreeFault Tree
  | .literal value => .ok (.literal value.ordered)
  | .property subject key => .ok (.property subject key)
  | .parameter name => .ok (.parameter name)
  | .unary op operand => do
    let operand ← normalExpression operand
    .ok (applyUnary op operand)
  | .binary op left right => do
    let left ← normalExpression left
    let right ← normalExpression right
    .ok (applyBinary op left right)
  | .call name args => do
    let args ← normalExpressions args
    .ok (.call name args)
  | t => .error (.unknownExpression t)

/-- The normal forms of several expressions. -/
def normalExpressions : List Tree → Except TreeFault (List Tree)
  | [] => .ok []
  | t :: rest => do
    let first ← normalExpression t
    let others ← normalExpressions rest
    .ok (first :: others)

end

/-- A property with the normal form of its expression. -/
def normalProperty (entry : String × Tree) : Except TreeFault (String × Tree) := do
  let expression ← entry.2.normalExpression
  .ok (entry.1, expression)

/-- Properties in the order of their names, with normal expressions. -/
def normalProperties : Option (List (String × Tree)) →
    Except TreeFault (Option (List (String × Tree)))
  | none => .ok none
  | some entries => do
    let entries ← (sortByText Prod.fst entries).mapM normalProperty
    .ok (some entries)

/-- The normal form of a node or a relationship. -/
def normalElement : Tree → Except TreeFault Tree
  | .node name labels properties => do
    let properties ← normalProperties properties
    .ok (.node name (sortByText id labels) properties)
  | .relationship direction type name properties => do
    let properties ← normalProperties properties
    .ok (.relationship direction type name properties)
  | t => .error (.pathElement t)

def normalPattern : Tree → Except TreeFault Tree
  | .path elements => do
    let elements ← elements.mapM normalElement
    .ok (.path elements)
  | t => if t.isPathElement then t.normalElement else .error (.unknownPattern t)

/-- The normal form of an item of a `RETURN` or `WITH` clause. -/
def normalReturnItem : Tree → Except TreeFault Tree
  | .variableItem name renamed => .ok (.variableItem name renamed)
  | .expressionItem expr renamed => do
    let expr ← expr.normalExpression
    .ok (.expressionItem expr renamed)
  | t => .error (.unknownReturnItem t)

/-- The normal form of an item of a `SET` clause. -/
def normalAssignment : Tree → Except TreeFault Tree
  | .assignment subject key value => do
    let value ← value.normalExpression
    .ok (.assignment subject key value)
  | _ => .error .missingField

/-- What an assignment assigns to. -/
def target : Tree → String
  | .assignment subject key _ => s!"{subject}.{key}"
  | _ => ""

/-- The normal form of an item of an `ORDER BY` clause. An item that has an expression but no
direction is missed only after its expression. -/
def normalOrderItem : Tree → Except TreeFault Tree
  | .orderItem expr direction => do
    let expr ← expr.normalExpression
    .ok (.orderItem expr direction)
  | .expressionItem expr _ => do
    let _ ← expr.normalExpression
    .error .missingField
  | _ => .error .missingField

def normalClause : Tree → Except TreeFault Tree
  | .matchClause pattern optional => do
    let pattern ← pattern.normalPattern
    .ok (.matchClause pattern optional)
  | .whereClause condition => do
    let condition ← condition.normalExpression
    .ok (.whereClause condition)
  | .createClause pattern => do
    let pattern ← pattern.normalPattern
    .ok (.createClause pattern)
  | .deleteClause names detach => .ok (.deleteClause names detach)
  | .setClause assignments => do
    let assignments ← assignments.mapM normalAssignment
    .ok (.setClause (sortByText target assignments))
  | .withClause items => do
    let items ← items.mapM normalReturnItem
    .ok (.withClause items)
  | .returnClause items => do
    let items ← items.mapM normalReturnItem
    .ok (.returnClause items)
  | .orderByClause items => do
    let items ← items.mapM normalOrderItem
    .ok (.orderByClause items)
  | .skipClause count => .ok (.skipClause count)
  | .limitClause count => .ok (.limitClause count)
  | t => .error (.unknownClause t)

/-- The place of a clause in a normal query. -/
def rank (t : Tree) : Except TreeFault Nat :=
  match t.rank? with
  | some rank => .ok rank
  | none => .error (.unknownClause t)

/-- Clauses in the order of their places in a query. -/
def sortClauses (clauses : List Tree) : List Tree :=
  stableSort (fun a b => decide (a.rank?.getD 0 ≤ b.rank?.getD 0)) clauses

end Tree

namespace Query

def normal (q : Query) : Except TreeFault Query := do
  let clauses ← q.clauses.mapM Tree.normalClause
  match Value.sortEntries? q.parameters with
  | some parameters => .ok ⟨Tree.sortClauses clauses, parameters⟩
  | none => .error .unorderedKeys

end Query

end GraphQuery
