import GraphQuery.Proofs.Normal.Expression
import GraphQuery.Proofs.Value.Reordering
import GraphQuery.Proofs.Value.Sorted
import GraphQuery.Query.Digest

/-! # Normal forms are left alone

`Tree.IsNormal` says what a normal expression looks like: the maps in its literals are sorted, no
negation is negated, and the chains of commutative operators lean to the right and have sorted
operands. Normal forms look like this, and what looks like this is its own normal form. So a normal
query has itself as its normal form, whatever its keys are and however many of its operands look the
same.
-/

namespace GraphQuery

namespace Tree

/-! ## Expressions -/

/-- What a normal expression looks like. Of a commutative operator only the right operand may be a
chain, and all operands of the chain are in the order of their texts. -/
inductive IsNormal : Tree → Prop where
  | literal {value : Value} : value.ordered = value → IsNormal (.literal value)
  | property (subject key : String) : IsNormal (.property subject key)
  | parameter (name : String) : IsNormal (.parameter name)
  | unary {op : String} {operand : Tree} :
    (op = "NOT" → ∀ inner, operand ≠ .unary "NOT" inner) → IsNormal operand → IsNormal (.unary op operand)
  | binary {op : String} {left right : Tree} :
    (isCommutative op = true → operands op left = [left] ∧
      (left :: operands op right).Pairwise fun a b => a.canonicalText ≤ b.canonicalText) →
    IsNormal left → IsNormal right → IsNormal (.binary op left right)
  | call (name : String) {args : List Tree} : (∀ arg ∈ args, IsNormal arg) → IsNormal (.call name args)

namespace IsNormal

variable {op : String} {t : Tree}

private theorem chain_operands (commutes : isCommutative op = true) (normal : t.IsNormal) :
    chain op (operands op t) = t := by
  fun_induction operands op t with
  | case1 left right _ ihRight =>
    -- the left operand is no chain, so only the right one is gathered further
    cases normal with
    | binary leans first second =>
      rw [(leans commutes).1, List.singleton_append, chain_cons (operands_ne_nil op right), ihRight second]
  | case2 | case3 => rfl

private theorem applyUnary_eq {operand : Tree}
    (single : op = "NOT" → ∀ inner, operand ≠ .unary "NOT" inner) :
    applyUnary op operand = .unary op operand := by
  fun_cases applyUnary op operand with
  | case1 inner operand both =>
    obtain ⟨rfl, rfl⟩ : op = "NOT" ∧ inner = "NOT" := by simpa using both
    exact absurd rfl (single rfl operand)
  | case2 | case3 => rfl

private theorem applyBinary_eq {left right : Tree}
    (leans : isCommutative op = true → operands op left = [left] ∧
      (left :: operands op right).Pairwise fun a b => a.canonicalText ≤ b.canonicalText)
    (normal : right.IsNormal) : applyBinary op left right = .binary op left right := by
  cases commutes : isCommutative op with
  | false => exact applyBinary_of_not_commutative commutes left right
  | true =>
    obtain ⟨single, sorted⟩ := leans commutes
    rw [applyBinary_of_commutative commutes, sortedOperands, single, List.singleton_append,
      sortByText_eq_sortByKey, sortByKey_eq_self sorted, chain_cons (operands_ne_nil op right),
      normal.chain_operands commutes]

/-- A normal expression is its own normal form. -/
theorem normalExpression_eq (normal : t.IsNormal) : t.normalExpression = .ok t := by
  induction normal with
  | literal ordered => rw [normalExpression, ordered]
  | property | parameter => rfl
  | unary single _ ih => exact normalExpression_unary_eq_ok.mpr ⟨_, ih, applyUnary_eq single⟩
  | binary leans _ right ihLeft ihRight =>
    exact normalExpression_binary_eq_ok.mpr ⟨_, _, ihLeft, ihRight, applyBinary_eq leans right⟩
  | call name _ args => exact normalExpression_call_eq_ok.mpr ⟨_, List.forall₂_same.mpr args, rfl⟩

private theorem applyUnary {operand : Tree} (normal : operand.IsNormal) :
    (Tree.applyUnary op operand).IsNormal := by
  fun_cases Tree.applyUnary op operand with
  | case1 inner operand =>
    cases normal with
    | unary _ normal => exact normal
  | case2 inner operand different =>
    -- an inner negation would have been cancelled
    refine .unary (fun negation other same => different ?_) normal
    obtain ⟨rfl, -⟩ := unary.inj same
    simp [negation]
  | case3 operand different => exact .unary (fun _ inner => different "NOT" inner) normal

private theorem chain {items : List Tree} (atLeastOne : items ≠ [])
    (single : ∀ item ∈ items, operands op item = [item]) (normal : ∀ item ∈ items, item.IsNormal)
    (sorted : items.Pairwise fun a b => a.canonicalText ≤ b.canonicalText) :
    (Tree.chain op items).IsNormal := by
  induction items with
  | nil => exact absurd rfl atLeastOne
  | cons item rest ih =>
    obtain ⟨first, others⟩ := List.forall_mem_cons.mp single
    obtain ⟨normalFirst, normalOthers⟩ := List.forall_mem_cons.mp normal
    by_cases last : rest = []
    · rw [last, chain_singleton]
      exact normalFirst
    · rw [chain_cons last]
      refine .binary (fun _ => ⟨first, ?_⟩) normalFirst (ih last others normalOthers sorted.tail)
      rwa [operands_chain last others]

private theorem applyBinary {left right : Tree} (ofLeft : left.IsNormal) (ofRight : right.IsNormal) :
    (Tree.applyBinary op left right).IsNormal := by
  cases commutes : isCommutative op with
  | false =>
    rw [applyBinary_of_not_commutative commutes]
    exact .binary (by simp [commutes]) ofLeft ofRight
  | true =>
    have split : ∀ a b, (Tree.binary op a b).IsNormal → a.IsNormal ∧ b.IsNormal := by
      rintro a b ⟨⟩
      exact ⟨‹_›, ‹_›⟩
    rw [applyBinary_of_commutative commutes]
    refine .chain (sortedOperands_ne_nil op left right) (fun _ => operands_of_mem_sortedOperands)
      (fun item member => ?_) ?_
    · rcases mem_sortedOperands.mp member with member | member
      · exact forall_mem_operands split ofLeft item member
      · exact forall_mem_operands split ofRight item member
    · rw [sortedOperands, sortByText_eq_sortByKey]
      exact pairwise_sortByKey canonicalText _

end IsNormal

/-- Normal forms of expressions look normal. -/
theorem isNormal_of_normalExpression {t n : Tree} (returned : t.normalExpression = .ok n) :
    n.IsNormal := by
  refine normalExpression_induction (motive := fun _ n => n.IsNormal) ?_ ?_ ?_ ?_ ?_ ?_ t n returned
  · exact fun value => .literal value.ordered_ordered
  · exact .property
  · exact .parameter
  · exact fun _ _ _ _ normal => normal.applyUnary
  · exact fun _ _ _ _ _ _ ofLeft _ ofRight => ofLeft.applyBinary ofRight
  · exact fun name _ _ all => .call name (forall_mem_of_forall₂ (all.imp fun _ _ both => both.2))

theorem settles_normalExpression : Settles normalExpression :=
  fun _ _ returned => (isNormal_of_normalExpression returned).normalExpression_eq

/-! ## Patterns and items -/

theorem settles_normalProperty : Settles normalProperty := by
  rintro ⟨key, t⟩ result returned
  obtain ⟨_, rfl, kept⟩ := settles_normalExpression.exists_wrapped returned
  exact kept

theorem normalProperty_eq_ok {entry form : String × Tree} (returned : normalProperty entry = .ok form) :
    entry.1 = form.1 ∧ entry.2.normalExpression = .ok form.2 := by
  obtain ⟨expression, ran, rfl⟩ := wrapped_eq_ok_iff.mp returned
  exact ⟨rfl, ran⟩

theorem exists_isStableSort_of_normalProperties {entries results : List (String × Tree)}
    (ran : (sortByText Prod.fst entries).mapM normalProperty = .ok results) :
    ∃ forms, entries.mapM normalProperty = .ok forms ∧ IsStableSort Prod.fst forms results := by
  rw [sortByText_eq_sortByKey] at ran
  exact exists_isStableSort_of_mapM (fun _ _ made => (normalProperty_eq_ok made).1) ran

theorem settles_normalProperties : Settles normalProperties := by
  intro properties result returned
  cases properties with
  | none =>
    obtain rfl := Except.ok.inj returned
    rfl
  | some entries =>
    obtain ⟨results, ran, rfl⟩ := wrapped_eq_ok_iff.mp returned
    obtain ⟨_, -, sorts⟩ := exists_isStableSort_of_normalProperties ran
    refine bind_eq_ok_iff.mpr ⟨results, ?_, rfl⟩
    rw [sortByText_eq_sortByKey, sortByKey_eq_self sorts.ordered]
    exact settles_normalProperty.mapM _ _ ran

theorem settles_normalElement : Settles normalElement := by
  intro t n returned
  cases t with
  | node name labels properties =>
    obtain ⟨result, ran, rfl⟩ := wrapped_eq_ok_iff.mp returned
    refine bind_eq_ok_iff.mpr ⟨result, settles_normalProperties _ _ ran, ?_⟩
    rw [sortByText_sortByText]
  | relationship direction type name properties =>
    obtain ⟨_, rfl, kept⟩ := settles_normalProperties.exists_wrapped returned
    exact kept
  | _ => cases returned

theorem isPathElement_of_normalElement {t n : Tree} (returned : t.normalElement = .ok n) :
    n.isPathElement = true := by
  cases t with
  | node | relationship =>
    obtain ⟨_, rfl, -⟩ := settles_normalProperties.exists_wrapped returned
    rfl
  | _ => cases returned

theorem normalPattern_of_isPathElement {t : Tree} (element : t.isPathElement = true) :
    t.normalPattern = t.normalElement := by
  cases t with
  | node | relationship => simp only [normalPattern, element, ↓reduceIte]
  | _ => cases element

theorem settles_normalPattern : Settles normalPattern := by
  intro t n returned
  cases t with
  | path elements =>
    obtain ⟨_, rfl, kept⟩ := settles_normalElement.mapM.exists_wrapped returned
    exact kept
  | node | relationship =>
    rw [normalPattern_of_isPathElement rfl] at returned
    rw [normalPattern_of_isPathElement (isPathElement_of_normalElement returned)]
    exact settles_normalElement _ n returned
  | _ => cases returned

theorem settles_normalReturnItem : Settles normalReturnItem := by
  intro t n returned
  cases t with
  | variableItem name renamed =>
    obtain rfl := Except.ok.inj returned
    rfl
  | expressionItem expr renamed =>
    obtain ⟨_, rfl, kept⟩ := settles_normalExpression.exists_wrapped returned
    exact kept
  | _ => cases returned

theorem settles_normalAssignment : Settles normalAssignment := by
  intro t n returned
  cases t with
  | assignment subject key value =>
    obtain ⟨_, rfl, kept⟩ := settles_normalExpression.exists_wrapped returned
    exact kept
  | _ => cases returned

theorem settles_normalOrderItem : Settles normalOrderItem := by
  intro t n returned
  cases t with
  | orderItem expr direction =>
    obtain ⟨_, rfl, kept⟩ := settles_normalExpression.exists_wrapped returned
    exact kept
  | expressionItem expr renamed =>
    obtain ⟨_, -, fails⟩ := bind_eq_ok_iff.mp returned
    cases fails
  | _ => cases returned

/-! ## Clauses and queries -/

theorem settles_normalClause : Settles normalClause := by
  intro t n returned
  cases t with
  | matchClause | createClause =>
    obtain ⟨_, rfl, kept⟩ := settles_normalPattern.exists_wrapped returned
    exact kept
  | whereClause condition =>
    obtain ⟨_, rfl, kept⟩ := settles_normalExpression.exists_wrapped returned
    exact kept
  | setClause assignments =>
    obtain ⟨results, ran, rfl⟩ := wrapped_eq_ok_iff.mp returned
    refine bind_eq_ok_iff.mpr ⟨sortByText target results, mapM_eq_ok_self fun result member => ?_, ?_⟩
    · exact settles_normalAssignment.of_mem_mapM ran result (mem_stableSort.mp member)
    · rw [sortByText_sortByText]
  | withClause | returnClause =>
    obtain ⟨_, rfl, kept⟩ := settles_normalReturnItem.mapM.exists_wrapped returned
    exact kept
  | orderByClause items =>
    obtain ⟨_, rfl, kept⟩ := settles_normalOrderItem.mapM.exists_wrapped returned
    exact kept
  | deleteClause | skipClause | limitClause =>
    obtain rfl := Except.ok.inj returned
    rfl
  | _ => cases returned

theorem sortClauses_sortClauses (clauses : List Tree) :
    sortClauses (sortClauses clauses) = sortClauses clauses :=
  sortByKey_sortByKey (fun t : Tree => t.rank?.getD 0) clauses

end Tree

namespace Query

theorem normal_eq_ok {q n : Query} :
    q.normal = .ok n ↔ ∃ clauses parameters, q.clauses.mapM Tree.normalClause = .ok clauses ∧
      Value.sortEntries? q.parameters = some parameters ∧ ⟨Tree.sortClauses clauses, parameters⟩ = n := by
  rw [normal, bind_eq_ok_iff]
  constructor
  · rintro ⟨clauses, ran, returned⟩
    cases sorted : Value.sortEntries? q.parameters with
    | none => simp [sorted] at returned
    | some parameters =>
      rw [sorted] at returned
      exact ⟨clauses, parameters, ran, rfl, Except.ok.inj returned⟩
  · rintro ⟨clauses, parameters, ran, sorted, rfl⟩
    exact ⟨clauses, ran, by rw [sorted]⟩

/-- A normal query is its own normal form. -/
theorem normal_normal {q n : Query} (returned : q.normal = .ok n) : n.normal = .ok n := by
  obtain ⟨clauses, parameters, ran, sorted, rfl⟩ := normal_eq_ok.mp returned
  refine normal_eq_ok.mpr ⟨_, parameters, mapM_eq_ok_self fun clause member => ?_,
    Value.sortEntries?_sortEntries? sorted, ?_⟩
  · exact Tree.settles_normalClause.of_mem_mapM ran clause (mem_stableSort.mp member)
  · rw [Tree.sortClauses_sortClauses]

end Query

end GraphQuery
