import GraphQuery.Proofs.Value.Reordering
import GraphQuery.Syntax.Decoding

/-! # Well-formed trees

A tree is well-formed if every field at every depth holds what the reader of trees accepts there,
and every literal is a value that a document can express. Names under which a tree keeps properties
or parameters are distinct.
-/

namespace GraphQuery.Tree

open FieldContent

/-- Whether a value may be an alias: a name or null. -/
def isAlias (renamed : Value) : Bool :=
  (alternative? (.scalar renamed)).isSome

def isFlag (flag : Value) : Bool :=
  (flag? (.scalar flag)).isSome

/-- Whether a value may be a number of rows. -/
def isCount (count : Value) : Bool :=
  (count? (.scalar count)).isSome

/-- Whether entries may be the parameters of a query: values under distinct names. -/
def areParameters (entries : List (Value × Value)) : Bool :=
  (parameters? (.map entries)).isSome && decide (entries.map fun entry => entry.1.asText).Nodup

mutual

/-- Whether every field of a tree holds what belongs there. -/
def wellFormed : Tree → Bool
  | .literal value => value.isJson
  | .property _ _ | .parameter _ => true
  | .binary op left right =>
    (binaryLevel? op).isSome && left.isExpression && right.isExpression &&
      wellFormed left && wellFormed right
  | .unary op operand => (unaryLevel? op).isSome && operand.isExpression && wellFormed operand
  | .call _ args => args.all isExpression && allWellFormed args
  | .node _ _ properties => propertiesWellFormed properties
  | .relationship direction _ _ properties =>
    (arrow? direction).isSome && propertiesWellFormed properties
  | .path elements => elements.all isPathElement && allWellFormed elements
  | .variableItem _ renamed => isAlias renamed
  | .expressionItem expr renamed => expr.isExpression && isAlias renamed && wellFormed expr
  | .assignment _ _ value => value.isExpression && wellFormed value
  | .orderItem expr direction => expr.isExpression && isSortDirection direction && wellFormed expr
  | .matchClause pattern optional => pattern.isPattern && isFlag optional && wellFormed pattern
  | .whereClause condition => condition.isExpression && wellFormed condition
  | .createClause pattern => pattern.isPattern && wellFormed pattern
  | .deleteClause _ detach => isFlag detach
  | .setClause assignments => assignments.all isAssignment && allWellFormed assignments
  | .withClause items | .returnClause items => items.all isReturnItem && allWellFormed items
  | .orderByClause items => items.all isOrderItem && allWellFormed items
  | .skipClause count | .limitClause count => isCount count
  | .query clauses parameters =>
    clauses.all isClause && areParameters parameters && allWellFormed clauses
  | .scalar _ | .tuple _ | .mapping _ => false

/-- Whether several trees are well-formed. -/
def allWellFormed : List Tree → Bool
  | [] => true
  | t :: rest => wellFormed t && allWellFormed rest

/-- Whether properties are expressions under distinct names, or absent. -/
def propertiesWellFormed : Option (List (String × Tree)) → Bool
  | none => true
  | some entries => decide (entries.map Prod.fst).Nodup && entriesWellFormed entries

/-- Whether everything under a name is an expression. -/
def entriesWellFormed : List (String × Tree) → Bool
  | [] => true
  | (_, t) :: rest => t.isExpression && wellFormed t && entriesWellFormed rest

end

theorem allWellFormed_eq_all (items : List Tree) : allWellFormed items = items.all wellFormed := by
  induction items with
  | nil => rfl
  | cons item rest ih => rw [allWellFormed, ih, List.all_cons]

theorem entriesWellFormed_eq_all (entries : List (String × Tree)) :
    entriesWellFormed entries = entries.all fun entry => entry.2.isExpression && entry.2.wellFormed := by
  induction entries with
  | nil => rfl
  | cons entry rest ih => rw [entriesWellFormed, ih, List.all_cons]

theorem areParameters_iff {entries : List (Value × Value)} : areParameters entries = true ↔
    (∀ entry ∈ entries, entry.1.text?.isSome = true) ∧ (entries.map fun entry => entry.1.asText).Nodup := by
  simp only [areParameters, FieldContent.parameters?, Bool.and_eq_true, decide_eq_true_eq]
  constructor
  · rintro ⟨texts, distinct⟩
    split at texts
    · rename_i all
      exact ⟨List.all_eq_true.mp all, distinct⟩
    · simp at texts
  · rintro ⟨texts, distinct⟩
    rw [if_pos (List.all_eq_true.mpr texts)]
    exact ⟨rfl, distinct⟩

theorem propertiesWellFormed_of_perm {entries others : List (String × Tree)}
    (perm : entries.Perm others) :
    propertiesWellFormed (some entries) = propertiesWellFormed (some others) := by
  simp only [propertiesWellFormed, entriesWellFormed_eq_all, perm.all_eq, (perm.map Prod.fst).nodup_iff]

theorem areParameters_of_perm {entries others : List (Value × Value)}
    (perm : entries.Perm others) : areParameters entries = areParameters others := by
  rw [Bool.eq_iff_iff, areParameters_iff, areParameters_iff, (perm.map _).nodup_iff]
  simp only [perm.mem_iff]

/-! ## Expressions -/

/-- Well-formed expressions, by how they are built. -/
inductive FormedExpression : Tree → Prop where
  | literal {value : Value} : value.isJson → FormedExpression (.literal value)
  | property (subject key : String) : FormedExpression (.property subject key)
  | parameter (name : String) : FormedExpression (.parameter name)
  | binary {op : String} {level : Nat} {left right : Tree} : binaryLevel? op = some level →
    FormedExpression left → FormedExpression right → FormedExpression (.binary op left right)
  | unary {op : String} {level : Nat} {operand : Tree} : unaryLevel? op = some level →
    FormedExpression operand → FormedExpression (.unary op operand)
  | call (name : String) {args : List Tree} :
    (∀ arg ∈ args, FormedExpression arg) → FormedExpression (.call name args)

mutual

private theorem formedExpression_of_wellFormed :
    (t : Tree) → t.isExpression = true → t.wellFormed = true → t.FormedExpression
  | .literal _, _, formed => .literal formed
  | .property subject key, _, _ => .property subject key
  | .parameter name, _, _ => .parameter name
  | .binary op left right, _, formed => by
    simp only [wellFormed, Bool.and_eq_true, Option.isSome_iff_exists] at formed
    obtain ⟨⟨⟨⟨⟨level, known⟩, leftExpression⟩, rightExpression⟩, leftFormed⟩, rightFormed⟩ := formed
    exact .binary known (formedExpression_of_wellFormed left leftExpression leftFormed)
      (formedExpression_of_wellFormed right rightExpression rightFormed)
  | .unary op operand, _, formed => by
    simp only [wellFormed, Bool.and_eq_true, Option.isSome_iff_exists] at formed
    obtain ⟨⟨⟨level, known⟩, expression⟩, formed⟩ := formed
    exact .unary known (formedExpression_of_wellFormed operand expression formed)
  | .call name args, _, formed => by
    simp only [wellFormed, Bool.and_eq_true, List.all_eq_true] at formed
    exact .call name (formedExpressions_of_wellFormed args formed.1 formed.2)
  | .node _ _ _, expression, _ | .relationship _ _ _ _, expression, _ | .path _, expression, _
  | .variableItem _ _, expression, _ | .expressionItem _ _, expression, _
  | .assignment _ _ _, expression, _ | .orderItem _ _, expression, _
  | .matchClause _ _, expression, _ | .whereClause _, expression, _
  | .createClause _, expression, _ | .deleteClause _ _, expression, _
  | .setClause _, expression, _ | .withClause _, expression, _ | .returnClause _, expression, _
  | .orderByClause _, expression, _ | .skipClause _, expression, _ | .limitClause _, expression, _
  | .query _ _, expression, _ | .scalar _, expression, _ | .tuple _, expression, _
  | .mapping _, expression, _ => by simp [isExpression] at expression

private theorem formedExpressions_of_wellFormed : (args : List Tree) →
    (∀ arg ∈ args, arg.isExpression = true) → allWellFormed args = true →
    ∀ arg ∈ args, arg.FormedExpression
  | [], _, _ => by simp
  | arg :: rest, expressions, formed => by
    simp only [allWellFormed, Bool.and_eq_true] at formed
    obtain ⟨first, others⟩ := List.forall_mem_cons.mp expressions
    exact List.forall_mem_cons.mpr ⟨formedExpression_of_wellFormed arg first formed.1,
      formedExpressions_of_wellFormed rest others formed.2⟩

end

theorem formedExpression_iff {t : Tree} :
    t.FormedExpression ↔ t.isExpression = true ∧ t.wellFormed = true := by
  constructor
  · intro formed
    induction formed with
    | literal json => exact ⟨rfl, json⟩
    | property | parameter => exact ⟨rfl, rfl⟩
    | binary known _ _ left right => exact ⟨rfl, by simp [wellFormed, known, left, right]⟩
    | unary known _ operand => exact ⟨rfl, by simp [wellFormed, known, operand]⟩
    | call name _ args =>
      refine ⟨rfl, ?_⟩
      simp only [wellFormed, allWellFormed_eq_all, Bool.and_eq_true, List.all_eq_true]
      exact ⟨fun arg member => (args arg member).1, fun arg member => (args arg member).2⟩
  · exact fun both => formedExpression_of_wellFormed t both.1 both.2

end GraphQuery.Tree
