import GraphQuery.Syntax.Fault
import GraphQuery.Syntax.Operator

/-! # The text of queries

Queries are written in Cypher. Parentheses are written where the level of an operand demands them:
around a weaker operand, and around one of the same level unless it continues an associative chain
or stands to the left of an operator that groups from the left. Nothing is reordered.
-/

namespace GraphQuery

/-- The pieces of a list with a separator between two of them. -/
def joinChars (separator : List Char) : List (List Char) → List Char
  | [] => []
  | [piece] => piece
  | piece :: rest => piece ++ separator ++ joinChars separator rest

/-- A comma and a blank. -/
def comma : List Char := [',', ' ']

namespace Value

mutual

/-- The characters of a literal. What the query language has no notation for is written as the
quoted text of the value. -/
def literalChars : Value → List Char
  | .null => "null".toList
  | .bool b => if b then "true".toList else "false".toList
  | .int i => (toString i).toList
  | .float x => Decimal.floatChars "NaN".toList "Infinity".toList x
  | .text s => Text.quotedChars false s.toList
  | .list items => '[' :: joinChars comma (literalItems items) ++ [']']
  | .tuple items => '[' :: joinChars comma (literalItems items) ++ [']']
  | .map entries => '\x7b' :: joinChars comma (literalEntries entries) ++ ['\x7d']
  | other => Text.quotedChars false other.asText.toList

def literalItems : List Value → List (List Char)
  | [] => []
  | item :: rest => literalChars item :: literalItems rest

/-- The characters of entries: the text of the key as it stands, a colon and the literal. -/
def literalEntries : List (Value × Value) → List (List Char)
  | [] => []
  | (key, item) :: rest =>
    (key.asText.toList ++ ':' :: ' ' :: literalChars item) :: literalEntries rest

end

def literalText (value : Value) : String :=
  String.ofList value.literalChars

end Value

namespace Tree

def level : Tree → Nat
  | .binary op _ _ => (binaryLevel? op).getD atomLevel
  | .unary op _ => (unaryLevel? op).getD atomLevel
  | _ => atomLevel

/-- Whether an operand with the same operator continues a chain. -/
def continues (op : String) : Tree → Bool
  | .binary other _ _ => other = op && isAssociative op
  | _ => false

/-- Whether an operand of a binary operator is written in parentheses. -/
def isEnclosed (op : String) (opLevel : Nat) (isRight : Bool) (operand : Tree) : Bool :=
  if opLevel < operand.level then false
  else if operand.level < opLevel then true
  else !(operand.continues op || (!isRight && groupsLeft opLevel))

def enclose (enclosed : Bool) (cs : List Char) : List Char :=
  if enclosed then '(' :: cs ++ [')'] else cs

/-- The characters of an operation with one operand. A sign before a sign is kept apart from it. -/
def unaryChars (op : String) (opLevel : Nat) (operand : Tree) (cs : List Char) : List Char :=
  let inner := enclose (operand.level ≤ opLevel || (op = "-" && cs.head? = some '-')) cs
  if op = "NOT" then "NOT ".toList ++ inner
  else if op = "-" then '-' :: inner
  else inner ++ ' ' :: op.toList

mutual

def expressionChars : Tree → Except TreeFault (List Char)
  | .literal value => .ok value.literalChars
  | .property subject key => .ok (subject.toList ++ '.' :: key.toList)
  | .parameter name => .ok ('$' :: name.toList)
  | .binary op left right =>
    match binaryLevel? op with
    | none => .error (.unknownBinaryOperator op)
    | some opLevel => do
      let leftChars ← expressionChars left
      let rightChars ← expressionChars right
      .ok (enclose (isEnclosed op opLevel false left) leftChars ++ ' ' :: op.toList ++
        ' ' :: enclose (isEnclosed op opLevel true right) rightChars)
  | .unary op operand =>
    match unaryLevel? op with
    | none => .error (.unknownUnaryOperator op)
    | some opLevel => do
      let cs ← expressionChars operand
      .ok (unaryChars op opLevel operand cs)
  | .call name args => do
    let args ← argumentChars args
    .ok (name.toList ++ '(' :: joinChars comma args ++ [')'])
  | t => .error (.unknownExpression t)

def argumentChars : List Tree → Except TreeFault (List (List Char))
  | [] => .ok []
  | t :: rest => do
    let first ← expressionChars t
    let others ← argumentChars rest
    .ok (first :: others)

end

def propertyChars (entry : String × Tree) : Except TreeFault (List Char) := do
  let cs ← entry.2.expressionChars
  .ok (entry.1.toList ++ ':' :: ' ' :: cs)

/-- The characters of properties, with a blank in front. -/
def propertiesChars : Option (List (String × Tree)) → Except TreeFault (List Char)
  | none => .ok []
  | some entries => do
    let pieces ← entries.mapM propertyChars
    .ok (' ' :: '\x7b' :: joinChars comma pieces ++ ['\x7d'])

/-- A type behind a colon, unless it is absent or empty. -/
def typeChars : Option String → List Char
  | none => []
  | some type => if type = "" then [] else ':' :: type.toList

mutual

def patternChars : Tree → Except TreeFault (List Char)
  | .node name labels properties => do
    let cs ← propertiesChars properties
    .ok ('(' :: name.toList ++ labels.flatMap (fun label => ':' :: label.toList) ++ cs ++ [')'])
  | .relationship direction type name properties => do
    let cs ← propertiesChars properties
    match arrow? direction with
    | none => .error (.unknownDirection direction)
    | some (before, behind) =>
      .ok (before.toList ++ '[' :: (name.getD "").toList ++ typeChars type ++ cs ++
        ']' :: behind.toList)
  | .path elements => elementChars elements
  | t => .error (.unknownPattern t)

def elementChars : List Tree → Except TreeFault (List Char)
  | [] => .ok []
  | t :: rest => do
    let first ← patternChars t
    let others ← elementChars rest
    .ok (first ++ others)

end

/-- An alias behind what it names, unless it is absent or empty. -/
def aliasChars (renamed : Value) : List Char :=
  if renamed.isPresent then " AS ".toList ++ renamed.asText.toList else []

/-- The characters of an item of a `RETURN` or `WITH` clause. -/
def returnItemChars : Tree → Except TreeFault (List Char)
  | .variableItem name renamed => .ok (name.toList ++ aliasChars renamed)
  | .expressionItem expr renamed => do
    let cs ← expr.expressionChars
    .ok (cs ++ aliasChars renamed)
  | t => .error (.unknownReturnItem t)

/-- The characters of an item of a `SET` clause. -/
def assignmentChars : Tree → Except TreeFault (List Char)
  | .assignment subject key value => do
    let cs ← value.expressionChars
    .ok (subject.toList ++ '.' :: key.toList ++ " = ".toList ++ cs)
  | _ => .error .missingField

/-- The characters of an item of an `ORDER BY` clause. -/
def orderItemChars : Tree → Except TreeFault (List Char)
  | .orderItem expr direction => do
    let cs ← expr.expressionChars
    .ok (cs ++ ' ' :: direction.toList)
  | .expressionItem expr _ => do
    let _ ← expr.expressionChars
    .error .missingField
  | _ => .error .missingField

/-- The characters of a keyword, a blank and the items of a clause. -/
def itemsChars (keyword : String) (itemChars : Tree → Except TreeFault (List Char))
    (items : List Tree) : Except TreeFault (List Char) := do
  let pieces ← items.mapM itemChars
  .ok (keyword.toList ++ ' ' :: joinChars comma pieces)

def clauseChars : Tree → Except TreeFault (List Char)
  | .matchClause pattern optional => do
    let cs ← pattern.patternChars
    .ok ((if optional.isPresent then "OPTIONAL MATCH " else "MATCH ").toList ++ cs)
  | .whereClause condition => do
    let cs ← condition.expressionChars
    .ok ("WHERE ".toList ++ cs)
  | .createClause pattern => do
    let cs ← pattern.patternChars
    .ok ("CREATE ".toList ++ cs)
  | .deleteClause names detach =>
    .ok ((if detach.isPresent then "DETACH DELETE " else "DELETE ").toList ++
      joinChars comma (names.map String.toList))
  | .setClause assignments => itemsChars "SET" assignmentChars assignments
  | .withClause items => itemsChars "WITH" returnItemChars items
  | .returnClause items => itemsChars "RETURN" returnItemChars items
  | .orderByClause items => itemsChars "ORDER BY" orderItemChars items
  | .skipClause count => .ok ("SKIP ".toList ++ count.asText.toList)
  | .limitClause count => .ok ("LIMIT ".toList ++ count.asText.toList)
  | t => .error (.unknownClause t)

def expressionText (t : Tree) : Except TreeFault String :=
  t.expressionChars.map String.ofList

def patternText (t : Tree) : Except TreeFault String :=
  t.patternChars.map String.ofList

/-- The text of an item of a `RETURN` or `WITH` clause. -/
def returnItemText (t : Tree) : Except TreeFault String :=
  t.returnItemChars.map String.ofList

def clauseText (t : Tree) : Except TreeFault String :=
  t.clauseChars.map String.ofList

end Tree

/-- The text of a query and the values that are passed beside it. -/
structure Statement where
  text : String
  parameters : List (Value × Value)
  deriving Inhabited

namespace Query

/-- The statement of a query, with its clauses in the order in which they stand. -/
def statement (q : Query) : Except TreeFault Statement := do
  let pieces ← q.clauses.mapM Tree.clauseChars
  .ok ⟨String.ofList (joinChars [' '] pieces), q.parameters⟩

end Query

end GraphQuery
