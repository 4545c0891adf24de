import GraphQuery.Proofs.Normal.Fixpoint
import GraphQuery.Proofs.Syntax.Setwise

/-! # What normal forms are made of

A normal form puts the parts of a query into order and leaves out double negations, but nothing gets
into it that was not in the query. So what holds of all values in a query holds of all values in its
normal form, if it does not depend on the order of keys.
-/

namespace GraphQuery

namespace Tree

/-- A property that a tree has exactly if its parts have it, whatever their order is. Of the values in
the fields of items and clauses it asks something of its own. -/
structure IsOfParts (P : Tree → Prop) (Q : Value → Prop) : Prop where
  literal : ∀ {value}, P (.literal value) → P (.literal value.ordered)
  unary : ∀ {op operand}, P (.unary op operand) ↔ P operand
  binary : ∀ {op left right}, P (.binary op left right) ↔ P left ∧ P right
  call : ∀ {name args}, P (.call name args) ↔ ∀ arg ∈ args, P arg
  node : ∀ {name labels properties}, P (.node name labels properties) ↔
    ∀ entry ∈ properties.getD [], P entry.2
  relationship : ∀ {direction type name properties}, P (.relationship direction type name properties) ↔
    ∀ entry ∈ properties.getD [], P entry.2
  path : ∀ {elements}, P (.path elements) ↔ ∀ element ∈ elements, P element
  expressionItem : ∀ {expr renamed}, P (.expressionItem expr renamed) ↔ P expr ∧ Q renamed
  assignment : ∀ {subject key value}, P (.assignment subject key value) ↔ P value
  orderItem : ∀ {expr direction}, P (.orderItem expr direction) ↔ P expr
  matchClause : ∀ {pattern optional}, P (.matchClause pattern optional) ↔ P pattern ∧ Q optional
  whereClause : ∀ {condition}, P (.whereClause condition) ↔ P condition
  createClause : ∀ {pattern}, P (.createClause pattern) ↔ P pattern
  setClause : ∀ {items}, P (.setClause items) ↔ ∀ item ∈ items, P item
  withClause : ∀ {items}, P (.withClause items) ↔ ∀ item ∈ items, P item
  returnClause : ∀ {items}, P (.returnClause items) ↔ ∀ item ∈ items, P item
  orderByClause : ∀ {items}, P (.orderByClause items) ↔ ∀ item ∈ items, P item

namespace IsOfParts

variable {P : Tree → Prop} {Q : Value → Prop} (parts : IsOfParts P Q)
include parts

theorem keeps_normalExpression : Keeps P P normalExpression := by
  refine normalExpression_induction (motive := fun t n => P t → P n) ?_ ?_ ?_ ?_ ?_ ?_
  · exact fun _ => parts.literal
  · exact fun _ _ => id
  · exact fun _ => id
  · exact fun _ _ _ _ ih holds =>
      applyUnary_induction (fun _ => parts.unary.mp) (fun _ => parts.unary.mpr) (ih (parts.unary.mp holds))
  · intro _ _ _ _ _ _ ihLeft _ ihRight holds
    obtain ⟨left, right⟩ := parts.binary.mp holds
    exact applyBinary_induction (fun _ _ => parts.binary.mp) (fun _ _ left right => parts.binary.mpr ⟨left, right⟩)
      (ihLeft left) (ihRight right)
  · intro name args inner all holds
    rw [parts.call] at holds ⊢
    induction all with
    | nil => exact List.forall_mem_nil _
    | cons first _ ih =>
      obtain ⟨here, others⟩ := List.forall_mem_cons.mp holds
      exact List.forall_mem_cons.mpr ⟨first.2 here, ih others⟩

private theorem keeps_normalProperty : Keeps (fun entry => P entry.2) (fun entry => P entry.2) normalProperty := by
  intro entry result returned holds
  obtain ⟨inner, rfl, kept⟩ := (keeps_normalExpression parts).wrapped returned holds
  exact kept

private theorem keeps_normalProperties :
    Keeps (fun properties => ∀ entry ∈ properties.getD [], P entry.2)
      (fun properties => ∀ entry ∈ properties.getD [], P entry.2) normalProperties := by
  intro properties result returned holds
  cases properties with
  | none =>
    obtain rfl := Except.ok.inj returned
    exact holds
  | some entries =>
    have sorted : ∀ entry ∈ sortByText Prod.fst entries, P entry.2 :=
      fun entry member => holds entry (mem_stableSort.mp member)
    obtain ⟨inner, rfl, kept⟩ := (keeps_normalProperty parts).mapM.wrapped returned sorted
    exact kept

private theorem keeps_normalElement : Keeps P P normalElement := by
  intro t n returned holds
  cases t with
  | node =>
    obtain ⟨inner, rfl, kept⟩ := (keeps_normalProperties parts).wrapped returned (parts.node.mp holds)
    exact parts.node.mpr kept
  | relationship =>
    obtain ⟨inner, rfl, kept⟩ := (keeps_normalProperties parts).wrapped returned (parts.relationship.mp holds)
    exact parts.relationship.mpr kept
  | _ => cases returned

private theorem keeps_normalPattern : Keeps P P normalPattern := by
  intro t n returned holds
  cases t with
  | path elements =>
    obtain ⟨inner, rfl, kept⟩ := (keeps_normalElement parts).mapM.wrapped returned (parts.path.mp holds)
    exact parts.path.mpr kept
  | node | relationship =>
    rw [normalPattern_of_isPathElement rfl] at returned
    exact keeps_normalElement parts _ n returned holds
  | _ => cases returned

private theorem keeps_normalReturnItem : Keeps P P normalReturnItem := by
  intro t n returned holds
  cases t with
  | variableItem =>
    obtain rfl := Except.ok.inj returned
    exact holds
  | expressionItem expr renamed =>
    obtain ⟨ofExpr, ofRenamed⟩ := parts.expressionItem.mp holds
    obtain ⟨inner, rfl, kept⟩ := (keeps_normalExpression parts).wrapped returned ofExpr
    exact parts.expressionItem.mpr ⟨kept, ofRenamed⟩
  | _ => cases returned

private theorem keeps_normalAssignment : Keeps P P normalAssignment := by
  intro t n returned holds
  cases t with
  | assignment =>
    obtain ⟨inner, rfl, kept⟩ := (keeps_normalExpression parts).wrapped returned (parts.assignment.mp holds)
    exact parts.assignment.mpr kept
  | _ => cases returned

private theorem keeps_normalOrderItem : Keeps P P normalOrderItem := by
  intro t n returned holds
  cases t with
  | orderItem =>
    obtain ⟨inner, rfl, kept⟩ := (keeps_normalExpression parts).wrapped returned (parts.orderItem.mp holds)
    exact parts.orderItem.mpr kept
  | expressionItem =>
    obtain ⟨_, -, fails⟩ := bind_eq_ok_iff.mp returned
    cases fails
  | _ => cases returned

/-- The normal form of a clause has what all parts of the clause have. -/
theorem keeps_normalClause : Keeps P P normalClause := by
  intro t n returned holds
  cases t with
  | matchClause =>
    obtain ⟨ofPattern, ofOptional⟩ := parts.matchClause.mp holds
    obtain ⟨inner, rfl, kept⟩ := (keeps_normalPattern parts).wrapped returned ofPattern
    exact parts.matchClause.mpr ⟨kept, ofOptional⟩
  | whereClause =>
    obtain ⟨inner, rfl, kept⟩ := (keeps_normalExpression parts).wrapped returned (parts.whereClause.mp holds)
    exact parts.whereClause.mpr kept
  | createClause =>
    obtain ⟨inner, rfl, kept⟩ := (keeps_normalPattern parts).wrapped returned (parts.createClause.mp holds)
    exact parts.createClause.mpr kept
  | setClause =>
    obtain ⟨inner, rfl, kept⟩ := (keeps_normalAssignment parts).mapM.wrapped returned (parts.setClause.mp holds)
    exact parts.setClause.mpr fun item member => kept item (mem_stableSort.mp member)
  | withClause =>
    obtain ⟨inner, rfl, kept⟩ := (keeps_normalReturnItem parts).mapM.wrapped returned (parts.withClause.mp holds)
    exact parts.withClause.mpr kept
  | returnClause =>
    obtain ⟨inner, rfl, kept⟩ :=
      (keeps_normalReturnItem parts).mapM.wrapped returned (parts.returnClause.mp holds)
    exact parts.returnClause.mpr kept
  | orderByClause =>
    obtain ⟨inner, rfl, kept⟩ :=
      (keeps_normalOrderItem parts).mapM.wrapped returned (parts.orderByClause.mp holds)
    exact parts.orderByClause.mpr kept
  | deleteClause | skipClause | limitClause =>
    obtain rfl := Except.ok.inj returned
    exact holds
  | _ => cases returned

end IsOfParts

/-! ## Literals and values -/

theorem literalsOfFields_eq_flatMap (entries : List (String × Tree)) :
    literalsOfFields entries = entries.flatMap fun entry => entry.2.literals := by
  induction entries with
  | nil => rfl
  | cons entry rest ih => rw [literalsOfFields, ih, List.flatMap_cons]

theorem isOfParts_literals {Q : Value → Prop} (ordered : ∀ v, Q v → Q v.ordered) :
    IsOfParts (fun t => ∀ v ∈ t.literals, Q v) fun _ => True := by
  have ofProperties (properties : Option (List (String × Tree))) :
      (∀ v ∈ literalsOfProperties properties, Q v) ↔
        ∀ entry ∈ properties.getD [], ∀ v ∈ entry.2.literals, Q v := by
    cases properties with
    | none => simp [literalsOfProperties]
    | some entries =>
      rw [literalsOfProperties, literalsOfFields_eq_flatMap, List.forall_mem_flatMap, Option.getD_some]
  constructor
  case literal =>
    intro value holds
    exact List.forall_mem_singleton.mpr (ordered value (List.forall_mem_singleton.mp holds))
  case node => exact ofProperties _
  case relationship => exact ofProperties _
  all_goals simp only [literals, literalsOfItems_eq_flatMap, List.forall_mem_append, List.forall_mem_flatMap,
    and_true, implies_true]

theorem isOfParts_values {Q : Value → Prop} (ordered : ∀ v, Q v → Q v.ordered) (null : Q .null)
    (text : ∀ s, Q (.text s)) : IsOfParts (fun t => ∀ v ∈ t.outline.values, Q v) Q := by
  have ofName? (name : Option String) : (∀ v ∈ (Outline.name? name).values, Q v) ↔ True := by
    cases name <;> simp [Outline.name?, Outline.name, Outline.values, null, text]
  have ofProperties (properties : Option (List (String × Tree))) :
      (∀ v ∈ (outlineProperties properties).values, Q v) ↔
        ∀ entry ∈ properties.getD [], ∀ v ∈ entry.2.outline.values, Q v := by
    cases properties with
    | none => simp [outlineProperties, Outline.values, null]
    | some entries =>
      rw [outlineProperties, outlineFields_eq_map, Outline.values, Outline.fieldValues_eq_flatMap,
        List.flatMap_map, List.forall_mem_flatMap, Option.getD_some]
  constructor
  case literal =>
    intro value holds
    exact List.forall_mem_singleton.mpr (ordered value (List.forall_mem_singleton.mp holds))
  all_goals simp only [outline, Outline.values, Outline.fieldValues, Outline.itemValues_eq_flatMap, outlines_eq_map,
    List.flatMap_map, List.forall_mem_append, List.forall_mem_flatMap, List.forall_mem_singleton, List.append_nil,
    Outline.name, text, ofName?, ofProperties, true_and, and_true, implies_true]

/-! ## The values that a text shows are values of the tree -/

mutual

theorem literals_subset_values : (t : Tree) → t.literals ⊆ t.outline.values
  | .literal _ => List.Subset.refl _
  | .property _ _ | .parameter _ | .variableItem _ _ | .deleteClause _ _ | .skipClause _ | .limitClause _
  | .query _ _ | .scalar _ | .tuple _ | .mapping _ => List.nil_subset _
  | .binary _ left right => by
    have ofLeft := literals_subset_values left
    have ofRight := literals_subset_values right
    simp only [literals, outline, Outline.values, Outline.fieldValues, List.append_nil]
    grind
  | .unary _ t | .assignment _ _ t | .orderItem t _ | .expressionItem t _ | .matchClause t _
  | .whereClause t | .createClause t => by
    have inner := literals_subset_values t
    simp only [literals, outline, Outline.values, Outline.fieldValues, List.append_nil]
    grind
  | .call _ items | .path items | .setClause items | .withClause items | .returnClause items
  | .orderByClause items => by
    have inner := literals_subset_values_items items
    simp only [literals, outline, Outline.values, Outline.fieldValues, List.append_nil]
    grind
  | .node _ _ properties | .relationship _ _ _ properties => by
    have inner := literals_subset_values_properties properties
    simp only [literals, outline, Outline.values, Outline.fieldValues, List.append_nil]
    grind

private theorem literals_subset_values_items :
    (items : List Tree) → literalsOfItems items ⊆ Outline.itemValues (outlines items)
  | [] => List.Subset.refl _
  | t :: rest => by
    have first := literals_subset_values t
    have others := literals_subset_values_items rest
    simp only [literalsOfItems, outlines, Outline.itemValues]
    grind

private theorem literals_subset_values_properties : (properties : Option (List (String × Tree))) →
    literalsOfProperties properties ⊆ (outlineProperties properties).values
  | none => List.nil_subset _
  | some entries => literals_subset_values_fields entries

private theorem literals_subset_values_fields : (entries : List (String × Tree)) →
    literalsOfFields entries ⊆ Outline.fieldValues (outlineFields entries)
  | [] => List.Subset.refl _
  | (_, t) :: rest => by
    have first := literals_subset_values t
    have others := literals_subset_values_fields rest
    simp only [literalsOfFields, outlineFields, Outline.fieldValues]
    grind

end

theorem shownScalars_subset_values (t : Tree) : t.shownScalars ⊆ t.outline.values := by
  have renamed (items : List Tree) :
      items.filterMap shownScalars.renamed? ⊆ Outline.itemValues (outlines items) := by
    intro v member
    obtain ⟨item, among, shown⟩ := List.mem_filterMap.mp member
    rw [Outline.itemValues_eq_flatMap, outlines_eq_map, List.flatMap_map, List.mem_flatMap]
    refine ⟨item, among, ?_⟩
    cases item with
    | variableItem | expressionItem =>
      obtain rfl := Option.some.inj shown
      simp [outline, Outline.values, Outline.fieldValues]
    | _ => cases shown
  cases t with
  | skipClause | limitClause => exact List.Subset.refl _
  | withClause items | returnClause items =>
    simp only [shownScalars, outline, Outline.values, Outline.fieldValues, List.append_nil]
    exact renamed items
  | _ => exact List.nil_subset _

end Tree

namespace Query

theorem forall_mem_clauses_of_normal {P : Tree → Prop} {Q : Value → Prop} (parts : Tree.IsOfParts P Q)
    {q n : Query} (returned : q.normal = .ok n) (holds : ∀ clause ∈ q.clauses, P clause) :
    ∀ clause ∈ n.clauses, P clause := by
  obtain ⟨clauses, _, ran, -, rfl⟩ := normal_eq_ok.mp returned
  exact fun clause member =>
    (parts.keeps_normalClause.mapM) _ _ ran holds clause (mem_stableSort.mp member)

end Query

end GraphQuery
