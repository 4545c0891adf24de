import GraphQuery.Proofs.Normal.Chain
import GraphQuery.Proofs.Outcome

/-! # Normal forms, step by step

An expression has a normal form exactly if all of its operands have one. The induction principle
`normalExpression_induction` goes through an expression and its normal form at the same time.
-/

namespace GraphQuery.Tree

theorem normalExpression_unary_eq_ok {op : String} {operand n : Tree} :
    (Tree.unary op operand).normalExpression = .ok n ↔
      ∃ inner, operand.normalExpression = .ok inner ∧ applyUnary op inner = n := by
  simp only [normalExpression, bind_eq_ok_iff, Except.ok.injEq]

theorem normalExpression_binary_eq_ok {op : String} {left right n : Tree} :
    (Tree.binary op left right).normalExpression = .ok n ↔
      ∃ first second, left.normalExpression = .ok first ∧ right.normalExpression = .ok second ∧
        applyBinary op first second = n := by
  simp only [normalExpression, bind_eq_ok_iff, Except.ok.injEq]
  constructor
  · rintro ⟨first, ranLeft, second, ranRight, same⟩
    exact ⟨first, second, ranLeft, ranRight, same⟩
  · rintro ⟨first, second, ranLeft, ranRight, same⟩
    exact ⟨first, ranLeft, second, ranRight, same⟩

theorem normalExpressions_eq_mapM (items : List Tree) :
    normalExpressions items = items.mapM normalExpression := by
  induction items with
  | nil => rfl
  | cons item rest ih => rw [normalExpressions, ih, List.mapM_cons]; rfl

theorem normalExpression_call_eq_ok {name : String} {args : List Tree} {n : Tree} :
    (Tree.call name args).normalExpression = .ok n ↔
      ∃ inner, List.Forall₂ (fun arg result => normalExpression arg = .ok result) args inner ∧
        Tree.call name inner = n := by
  simp only [normalExpression, bind_eq_ok_iff, Except.ok.injEq, normalExpressions_eq_mapM, mapM_eq_ok_iff]

section Induction

variable {motive : Tree → Tree → Prop}
  (literal : ∀ value, motive (.literal value) (.literal value.ordered))
  (property : ∀ subject key, motive (.property subject key) (.property subject key))
  (parameter : ∀ name, motive (.parameter name) (.parameter name))
  (unary : ∀ op operand inner, operand.normalExpression = .ok inner → motive operand inner →
    motive (.unary op operand) (applyUnary op inner))
  (binary : ∀ op left right first second, left.normalExpression = .ok first → motive left first →
    right.normalExpression = .ok second → motive right second →
    motive (.binary op left right) (applyBinary op first second))
  (call : ∀ name args inner,
    List.Forall₂ (fun arg result => normalExpression arg = .ok result ∧ motive arg result) args inner →
    motive (.call name args) (.call name inner))
include literal property parameter unary binary call

set_option linter.unusedSectionVars false

mutual

/-- Induction over an expression and its normal form. -/
theorem normalExpression_induction :
    (t n : Tree) → t.normalExpression = .ok n → motive t n
  | .literal value, n, returned => by
    obtain rfl : Tree.literal value.ordered = n := by simpa [normalExpression] using returned
    exact literal value
  | .property subject key, n, returned => by
    obtain rfl : Tree.property subject key = n := by simpa [normalExpression] using returned
    exact property subject key
  | .parameter name, n, returned => by
    obtain rfl : Tree.parameter name = n := by simpa [normalExpression] using returned
    exact parameter name
  | .unary op operand, n, returned => by
    obtain ⟨inner, ran, rfl⟩ := normalExpression_unary_eq_ok.mp returned
    exact unary op operand inner ran (normalExpression_induction operand inner ran)
  | .binary op left right, n, returned => by
    obtain ⟨first, second, ranLeft, ranRight, rfl⟩ := normalExpression_binary_eq_ok.mp returned
    exact binary op left right first second ranLeft (normalExpression_induction left first ranLeft)
      ranRight (normalExpression_induction right second ranRight)
  | .call name args, n, returned => by
    obtain ⟨inner, ran, rfl⟩ := normalExpression_call_eq_ok.mp returned
    exact call name args inner (normalExpressions_induction args inner ran)
  | .node _ _ _, _, returned | .relationship _ _ _ _, _, returned | .path _, _, returned
  | .variableItem _ _, _, returned | .expressionItem _ _, _, returned
  | .assignment _ _ _, _, returned | .orderItem _ _, _, returned | .matchClause _ _, _, returned
  | .whereClause _, _, returned | .createClause _, _, returned | .deleteClause _ _, _, returned
  | .setClause _, _, returned | .withClause _, _, returned | .returnClause _, _, returned
  | .orderByClause _, _, returned | .skipClause _, _, returned | .limitClause _, _, returned
  | .query _ _, _, returned | .scalar _, _, returned | .tuple _, _, returned
  | .mapping _, _, returned => by simp [normalExpression] at returned

private theorem normalExpressions_induction :
    (args inner : List Tree) → List.Forall₂ (fun arg result => normalExpression arg = .ok result) args inner →
      List.Forall₂ (fun arg result => normalExpression arg = .ok result ∧ motive arg result) args inner
  | [], _, ran => by
    cases ran
    exact .nil
  | arg :: rest, _, ran => by
    cases ran with
    | cons first others =>
      exact .cons ⟨first, normalExpression_induction arg _ first⟩ (normalExpressions_induction rest _ others)

end

end Induction

end GraphQuery.Tree
