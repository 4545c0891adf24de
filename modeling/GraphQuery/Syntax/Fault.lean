import GraphQuery.Syntax.Outline

/-! # Faults of trees

A tree may hold what does not belong in its place. Whoever reads trees stops at the first such
place. Two faults are not about a place: a node may lack a field that every node in its place has,
and the keys of parameters may have no order.
-/

namespace GraphQuery

/-- Why a tree cannot be read. -/
inductive TreeFault where
  | notANode (t : Tree)
  | unknownExpression (t : Tree)
  | unknownPattern (t : Tree)
  | pathElement (t : Tree)
  | unknownReturnItem (t : Tree)
  | unknownClause (t : Tree)
  | unknownBinaryOperator (op : String)
  | unknownUnaryOperator (op : String)
  | unknownDirection (direction : String)
  | missingField
  | unorderedKeys

namespace TreeFault

def message : TreeFault → String
  | .notANode t => s!"Not an AST node: {t.display}"
  | .unknownExpression t => s!"Unknown expression: {t.display}"
  | .unknownPattern t => s!"Unknown pattern: {t.display}"
  | .pathElement t => s!"Invalid path element: {t.display}"
  | .unknownReturnItem t => s!"Unknown return item: {t.display}"
  | .unknownClause t => s!"Unknown clause: {t.display}"
  | .unknownBinaryOperator op => s!"Unknown binary operator: {Text.display op}"
  | .unknownUnaryOperator op => s!"Unknown unary operator: {Text.display op}"
  | .unknownDirection direction => s!"Unknown relationship direction: {Text.display direction}"
  | .missingField => "a node lacks a field of its place"
  | .unorderedKeys => "the keys of a map have no order"

/-- Whether a fault says that a tree stands outside the trees that its place allows. -/
def isInconsistency : TreeFault → Bool
  | .missingField | .unorderedKeys => false
  | _ => true

end TreeFault

namespace Tree

def toData (t : Tree) : Except TreeFault Value :=
  if t.kind?.isSome then .ok t.outline.toData else .error (.notANode t)

def nodeText (t : Tree) : Except TreeFault String :=
  if t.kind?.isSome then .ok t.canonicalText else .error (.notANode t)

end Tree

end GraphQuery
