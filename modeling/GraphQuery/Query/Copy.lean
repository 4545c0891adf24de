import GraphQuery.Query.Digest
import GraphQuery.Syntax.Literals
import GraphQuery.Value.Copy

/-! # Queries made of copies

`Query.normal` arranges the values of a query where they stand. Whoever asks for a normal form gets
one that shares no value with the query: every literal and every parameter is copied. A value that
cannot be copied is in the way of this, and the sets in a copy may list their items in another order.
`Query.normalCopy` is the normal form with copies in the place of the values; neither the arrangement
of the query nor its canonical text sees the order in which sets list their items.

Texts are written from values, and an integer that is too long to be written is in the way of the
text. `Query.written`, `Tree.writtenText`, `Query.writtenBuild` and `Query.writtenHash` watch for such
integers.
-/

namespace GraphQuery

/-- The fault of an integer that is too long to be written. -/
def Fault.tooLongToWrite : Fault :=
  .plain .value (s!"Exceeds the limit ({Decimal.digitLimit} digits) for integer string conversion; " ++
    "use sys.set_int_max_str_digits() to increase the limit")

/-- A result, if the values that it is written from can be written. -/
def ifWritable {Result : Type} (values : List Value) (result : Result) : Except Fault Result :=
  if values.all Value.isWritable then .ok result else .error .tooLongToWrite

theorem ifWritable_eq_ok_iff {Result : Type} {values : List Value} {result other : Result} :
    ifWritable values result = .ok other ↔ (∀ v ∈ values, v.isWritable = true) ∧ result = other := by
  rw [← List.all_eq_true, ifWritable]
  cases values.all Value.isWritable <;> simp

namespace Tree

/-- A tree made of copies of its literals. -/
def copiedIn (copying : Copying) (t : Tree) : Except Fault Tree :=
  match copying.literalRefusal? t.literals with
  | some fault => .error fault
  | none => .ok (t.mapLiterals (Value.copiedLiteral copying.arrange))

/-- The canonical text of a node, if it can be written. -/
def writtenText (t : Tree) : Except Fault String := do
  let text ← ofTree t.nodeText
  ifWritable t.outline.values text

end Tree

namespace Query

/-- A clause of the normal form of a query, made of copies. -/
def clauseCopy (copying : Copying) (clause : Tree) : Except Fault Tree := do
  let normal ← ofTree clause.normalClause
  normal.copiedIn copying

/-- The normal form of a query, made of copies. -/
def normalCopy (copying : Copying) (q : Query) : Except Fault Query := do
  let clauses ← q.clauses.mapM (clauseCopy copying)
  match Value.sortEntries? q.parameters with
  | some sorted => do
    let parameters ← sorted.mapM copying.entry
    .ok ⟨Tree.sortClauses clauses, parameters⟩
  | none => .error (.ofTree .unorderedKeys)

def written (q : Query) : Except Fault Statement := do
  let statement ← ofTree q.statement
  ifWritable (q.clauses.flatMap fun clause => clause.literals ++ clause.shownScalars) statement

/-- The statement of the normal form of a query, if it can be made and written. -/
def writtenBuild (copying : Copying) (q : Query) : Except Fault Statement := do
  let normal ← q.normalCopy copying
  normal.written

/-- The digest of a query, if its normal form can be made and written. -/
def writtenHash (copying : Copying) (q : Query) : Except Fault String := do
  let normal ← q.normalCopy copying
  let text ← normal.toTree.writtenText
  .ok (digest text)

end Query

end GraphQuery
