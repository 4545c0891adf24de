import GraphQuery.Proofs.Normal.Fixpoint
import GraphQuery.Proofs.Syntax.Literals

/-! # Normal forms with other literals

If other literals are put in the place of those of a query, and neither the order of their keys nor the
canonical text of a tree depends on it, then the normal form is the one that it was, with the other
literals in their places. So it makes no difference whether the literals are replaced in a query or in
its normal form.
-/

namespace GraphQuery

namespace Tree

section Replaced

variable {f : Value → Value} (ordered : ∀ v, (f v).ordered = f v.ordered)
  (text : ∀ t : Tree, (t.mapLiterals f).canonicalText = t.canonicalText)

/-! ## Expressions -/

private theorem applyUnary_mapLiterals (op : String) (operand : Tree) :
    applyUnary op (operand.mapLiterals f) = (applyUnary op operand).mapLiterals f := by
  fun_cases applyUnary op operand with
  | case1 inner operand both => simp only [mapLiterals, applyUnary, both, if_true]
  | case2 inner operand different => simp only [mapLiterals, applyUnary, different]; rfl
  | case3 operand different =>
    cases operand with
    | unary inner operand => exact absurd rfl (different inner operand)
    | _ => rfl

private theorem operands_mapLiterals (op : String) (t : Tree) :
    operands op (t.mapLiterals f) = (operands op t).map (mapLiterals f) := by
  fun_induction operands op t with
  | case1 left right ihLeft ihRight =>
    rw [mapLiterals, operands, if_pos rfl, ihLeft, ihRight, List.map_append]
  | case2 other left right different =>
    rw [mapLiterals, operands, if_neg different, List.map_singleton, mapLiterals]
  | case3 t notBinary =>
    cases t with
    | binary other left right => exact absurd rfl (notBinary other left right)
    | _ => rfl

private theorem chain_mapLiterals (op : String) (items : List Tree) :
    chain op (items.map (mapLiterals f)) = (chain op items).mapLiterals f := by
  induction items with
  | nil => rfl
  | cons item rest ih =>
    cases rest with
    | nil => rfl
    | cons next others =>
      have more : (next :: others).map (mapLiterals f) ≠ [] := List.cons_ne_nil _ _
      rw [List.map_cons, chain_cons more, ih, chain_cons (List.cons_ne_nil next others), mapLiterals]

include text in
private theorem applyBinary_mapLiterals (op : String) (left right : Tree) :
    applyBinary op (left.mapLiterals f) (right.mapLiterals f) = (applyBinary op left right).mapLiterals f := by
  cases commutes : isCommutative op with
  | false => rw [applyBinary_of_not_commutative commutes, applyBinary_of_not_commutative commutes, mapLiterals]
  | true =>
    have sorted : sortedOperands op (left.mapLiterals f) (right.mapLiterals f) =
        (sortedOperands op left right).map (mapLiterals f) := by
      simp only [sortedOperands, sortByText_eq_sortByKey, operands_mapLiterals, ← List.map_append,
        sortByKey_map, text]
    rw [applyBinary_of_commutative commutes, applyBinary_of_commutative commutes, sorted, chain_mapLiterals]

include ordered text

/-- An expression with other literals has the normal form with other literals. -/
theorem normalExpression_mapLiterals : GoesThrough (mapLiterals f) (mapLiterals f) normalExpression := by
  intro t n returned
  refine normalExpression_induction
    (motive := fun t n => (t.mapLiterals f).normalExpression = .ok (n.mapLiterals f))
    ?_ ?_ ?_ ?_ ?_ ?_ t n returned
  · intro value
    rw [mapLiterals, normalExpression, ordered, mapLiterals]
  · exact fun _ _ => rfl
  · exact fun _ => rfl
  · exact fun op _ inner _ ih =>
      normalExpression_unary_eq_ok.mpr ⟨_, ih, applyUnary_mapLiterals op inner⟩
  · exact fun op _ _ first second _ ihLeft _ ihRight =>
      normalExpression_binary_eq_ok.mpr ⟨_, _, ihLeft, ihRight, applyBinary_mapLiterals text op first second⟩
  · intro name args inner all
    rw [mapLiterals, mapLiterals, mapLiteralsOfItems_eq_map, mapLiteralsOfItems_eq_map]
    refine normalExpression_call_eq_ok.mpr ⟨_, ?_, rfl⟩
    rw [List.forall₂_map_left_iff, List.forall₂_map_right_iff]
    exact all.imp fun _ _ both => both.2

/-! ## Patterns and items -/

private theorem normalProperty_mapLiterals : GoesThrough (mapField f) (mapField f) normalProperty := by
  rintro ⟨key, t⟩ result returned
  obtain ⟨inner, rfl, through⟩ := (normalExpression_mapLiterals ordered text).wrapped returned
  exact through _

private theorem normalProperties_mapLiterals :
    GoesThrough (mapLiteralsOfProperties f) (mapLiteralsOfProperties f) normalProperties := by
  intro properties result returned
  cases properties with
  | none =>
    obtain rfl := Except.ok.inj returned
    rfl
  | some entries =>
    obtain ⟨results, rfl, through⟩ := (normalProperty_mapLiterals ordered text).mapM.wrapped returned
    have sorted : sortByText Prod.fst (entries.map (mapField f)) =
        (sortByText Prod.fst entries).map (mapField f) := by
      rw [sortByText_eq_sortByKey, sortByText_eq_sortByKey, sortByKey_map]
      rfl
    rw [mapLiteralsOfProperties, mapLiteralsOfFields_eq_map, normalProperties, sorted, through,
      mapLiteralsOfProperties, mapLiteralsOfFields_eq_map]

private theorem normalElement_mapLiterals : GoesThrough (mapLiterals f) (mapLiterals f) normalElement := by
  intro t n returned
  cases t with
  | node | relationship =>
    obtain ⟨inner, rfl, through⟩ := (normalProperties_mapLiterals ordered text).wrapped returned
    exact through _
  | _ => cases returned

private theorem normalPattern_mapLiterals : GoesThrough (mapLiterals f) (mapLiterals f) normalPattern := by
  intro t n returned
  cases t with
  | path elements =>
    obtain ⟨inner, rfl, through⟩ := (normalElement_mapLiterals ordered text).mapM.wrapped returned
    rw [mapLiterals, mapLiteralsOfItems_eq_map, mapLiterals, mapLiteralsOfItems_eq_map]
    exact through _
  | node | relationship =>
    rw [normalPattern_of_isPathElement rfl] at returned
    rw [normalPattern_of_isPathElement rfl]
    exact normalElement_mapLiterals ordered text _ n returned
  | _ => cases returned

private theorem normalReturnItem_mapLiterals :
    GoesThrough (mapLiterals f) (mapLiterals f) normalReturnItem := by
  intro t n returned
  cases t with
  | variableItem name renamed =>
    obtain rfl := Except.ok.inj returned
    rfl
  | expressionItem expr renamed =>
    obtain ⟨inner, rfl, through⟩ := (normalExpression_mapLiterals ordered text).wrapped returned
    exact through _
  | _ => cases returned

private theorem normalAssignment_mapLiterals :
    GoesThrough (mapLiterals f) (mapLiterals f) normalAssignment := by
  intro t n returned
  cases t with
  | assignment subject key value =>
    obtain ⟨inner, rfl, through⟩ := (normalExpression_mapLiterals ordered text).wrapped returned
    exact through _
  | _ => cases returned

private theorem normalOrderItem_mapLiterals :
    GoesThrough (mapLiterals f) (mapLiterals f) normalOrderItem := by
  intro t n returned
  cases t with
  | orderItem expr direction =>
    obtain ⟨inner, rfl, through⟩ := (normalExpression_mapLiterals ordered text).wrapped returned
    exact through _
  | expressionItem expr renamed =>
    obtain ⟨_, -, fails⟩ := bind_eq_ok_iff.mp returned
    cases fails
  | _ => cases returned

/-! ## Clauses -/

omit ordered text in
private theorem target_mapLiterals (t : Tree) : (t.mapLiterals f).target = t.target := by
  cases t <;> rfl

omit ordered text in
private theorem sortByText_target_mapLiterals (items : List Tree) :
    sortByText target (items.map (mapLiterals f)) = (sortByText target items).map (mapLiterals f) := by
  simp only [sortByText_eq_sortByKey, sortByKey_map, target_mapLiterals]

omit ordered text in
theorem sortClauses_mapLiterals (clauses : List Tree) :
    sortClauses (clauses.map (mapLiterals f)) = (sortClauses clauses).map (mapLiterals f) := by
  simp only [sortClauses, stableSort_map, rank?_mapLiterals]

/-- A clause with other literals has the normal form with other literals. -/
theorem normalClause_mapLiterals : GoesThrough (mapLiterals f) (mapLiterals f) normalClause := by
  intro t n returned
  cases t with
  | matchClause | createClause =>
    obtain ⟨inner, rfl, through⟩ := (normalPattern_mapLiterals ordered text).wrapped returned
    exact through _
  | whereClause condition =>
    obtain ⟨inner, rfl, through⟩ := (normalExpression_mapLiterals ordered text).wrapped returned
    exact through _
  | setClause assignments =>
    obtain ⟨inner, rfl, through⟩ := (normalAssignment_mapLiterals ordered text).mapM.wrapped returned
    rw [mapLiterals, mapLiteralsOfItems_eq_map, mapLiterals, mapLiteralsOfItems_eq_map, normalClause,
      through, sortByText_target_mapLiterals]
  | withClause | returnClause =>
    obtain ⟨inner, rfl, through⟩ := (normalReturnItem_mapLiterals ordered text).mapM.wrapped returned
    rw [mapLiterals, mapLiteralsOfItems_eq_map, mapLiterals, mapLiteralsOfItems_eq_map]
    exact through _
  | orderByClause items =>
    obtain ⟨inner, rfl, through⟩ := (normalOrderItem_mapLiterals ordered text).mapM.wrapped returned
    rw [mapLiterals, mapLiteralsOfItems_eq_map, mapLiterals, mapLiteralsOfItems_eq_map]
    exact through _
  | deleteClause | skipClause | limitClause =>
    obtain rfl := Except.ok.inj returned
    rfl
  | _ => cases returned

end Replaced

end Tree

namespace Value

/-- Sorting entries goes through a change of their items. -/
theorem sortEntries?_map {Item Other : Type} (g : Item → Other) (entries : List (Value × Item)) :
    sortEntries? (entries.map fun entry => (entry.1, g entry.2)) =
      (sortEntries? entries).map (List.map fun entry => (entry.1, g entry.2)) := by
  have comparable : comparableKeys (entries.map fun entry => (entry.1, g entry.2)) = comparableKeys entries := by
    induction entries with
    | nil => rfl
    | cons entry rest ih => simp only [List.map_cons, comparableKeys, List.all_map, Function.comp_def, ih]
  rw [sortEntries?, sortEntries?, comparable, stableSort_map]
  split <;> rfl

end Value

namespace Query

/-- A query with its literals and the values of its parameters replaced. -/
def replaced (f g : Value → Value) (q : Query) : Query :=
  ⟨q.clauses.map (Tree.mapLiterals f), q.parameters.map fun entry => (entry.1, g entry.2)⟩

/-- A query with other values has the normal form with other values. -/
theorem normal_replaced {f g : Value → Value} (ordered : ∀ v, (f v).ordered = f v.ordered)
    (text : ∀ t : Tree, (t.mapLiterals f).canonicalText = t.canonicalText) :
    GoesThrough (replaced f g) (replaced f g) normal := by
  intro q n returned
  obtain ⟨clauses, parameters, ran, sorted, rfl⟩ := normal_eq_ok.mp returned
  refine normal_eq_ok.mpr ⟨_, parameters.map fun entry => (entry.1, g entry.2),
    (Tree.normalClause_mapLiterals ordered text).mapM _ _ ran, ?_, ?_⟩
  · rw [replaced, Value.sortEntries?_map, sorted]
    rfl
  · rw [Tree.sortClauses_mapLiterals, replaced]

end Query

end GraphQuery
