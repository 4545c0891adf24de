import GraphQuery.Proofs.Outcome
import GraphQuery.Proofs.Syntax.WellFormed
import GraphQuery.Query.Text

/-! # Well-formed trees have a text

Writing a tree fails only at what is not well-formed: an unknown operator or direction, or a tree
out of its place.
-/

namespace GraphQuery

namespace Tree

theorem argumentChars_eq_mapM (items : List Tree) : argumentChars items = items.mapM expressionChars := by
  induction items with
  | nil => rfl
  | cons item rest ih => rw [argumentChars, ih, List.mapM_cons]; rfl

theorem FormedExpression.exists_expressionChars {t : Tree} (formed : t.FormedExpression) :
    ∃ cs, t.expressionChars = .ok cs := by
  induction formed with
  | literal => exact ⟨_, rfl⟩
  | property => exact ⟨_, rfl⟩
  | parameter => exact ⟨_, rfl⟩
  | binary known _ _ left right =>
    obtain ⟨leftChars, leftWritten⟩ := left
    obtain ⟨rightChars, rightWritten⟩ := right
    rw [expressionChars, known]
    simp only [leftWritten, rightWritten]
    exact ⟨_, rfl⟩
  | unary known _ operand =>
    obtain ⟨cs, written⟩ := operand
    rw [expressionChars, known]
    simp only [written]
    exact ⟨_, rfl⟩
  | call name _ args =>
    obtain ⟨pieces, written⟩ := exists_mapM_eq_ok args
    rw [expressionChars, argumentChars_eq_mapM, written]
    exact ⟨_, rfl⟩

private theorem exists_propertiesChars {properties : Option (List (String × Tree))}
    (formed : propertiesWellFormed properties = true) : ∃ cs, propertiesChars properties = .ok cs := by
  cases properties with
  | none => exact ⟨_, rfl⟩
  | some entries =>
    simp only [propertiesWellFormed, entriesWellFormed_eq_all, Bool.and_eq_true, List.all_eq_true] at formed
    have steps : ∀ entry ∈ entries, ∃ cs, propertyChars entry = .ok cs := by
      intro entry member
      obtain ⟨cs, written⟩ := (formedExpression_iff.mpr (formed.2 entry member)).exists_expressionChars
      rw [propertyChars, written]
      exact ⟨_, rfl⟩
    obtain ⟨pieces, written⟩ := exists_mapM_eq_ok steps
    rw [propertiesChars, written]
    exact ⟨_, rfl⟩

private theorem exists_elementChars {t : Tree} (element : t.isPathElement = true)
    (formed : t.wellFormed = true) : ∃ cs, t.patternChars = .ok cs := by
  cases t with
  | node name labels properties =>
    obtain ⟨cs, written⟩ := exists_propertiesChars formed
    rw [patternChars, written]
    exact ⟨_, rfl⟩
  | relationship direction type name properties =>
    simp only [wellFormed, Bool.and_eq_true, Option.isSome_iff_exists] at formed
    obtain ⟨⟨⟨before, behind⟩, known⟩, formed⟩ := formed
    obtain ⟨cs, written⟩ := exists_propertiesChars formed
    rw [patternChars, written, known]
    exact ⟨_, rfl⟩
  | _ => simp [isPathElement] at element

private theorem elementChars_eq_mapM (elements : List Tree) :
    elementChars elements = (elements.mapM patternChars).map List.flatten := by
  induction elements with
  | nil => rfl
  | cons element rest ih =>
    rw [elementChars, ih, List.mapM_cons]
    cases patternChars element with
    | error => rfl
    | ok first => cases rest.mapM patternChars <;> rfl

theorem exists_patternChars {t : Tree} (pattern : t.isPattern = true) (formed : t.wellFormed = true) :
    ∃ cs, t.patternChars = .ok cs := by
  cases t with
  | node | relationship => exact exists_elementChars rfl formed
  | path elements =>
    simp only [wellFormed, allWellFormed_eq_all, Bool.and_eq_true, List.all_eq_true] at formed
    obtain ⟨pieces, written⟩ := exists_mapM_eq_ok fun item member =>
      exists_elementChars (formed.1 item member) (formed.2 item member)
    rw [patternChars, elementChars_eq_mapM, written]
    exact ⟨_, rfl⟩
  | _ => simp [isPattern] at pattern

theorem exists_returnItemChars {t : Tree} (item : t.isReturnItem = true) (formed : t.wellFormed = true) :
    ∃ cs, t.returnItemChars = .ok cs := by
  cases t with
  | variableItem => exact ⟨_, rfl⟩
  | expressionItem expr renamed =>
    simp only [wellFormed, Bool.and_eq_true] at formed
    obtain ⟨cs, written⟩ :=
      (formedExpression_iff.mpr ⟨formed.1.1, formed.2⟩).exists_expressionChars
    rw [returnItemChars, written]
    exact ⟨_, rfl⟩
  | _ => simp [isReturnItem] at item

theorem exists_assignmentChars {t : Tree} (assignment : t.isAssignment = true)
    (formed : t.wellFormed = true) : ∃ cs, t.assignmentChars = .ok cs := by
  cases t with
  | assignment subject key value =>
    simp only [wellFormed, Bool.and_eq_true] at formed
    obtain ⟨cs, written⟩ := (formedExpression_iff.mpr formed).exists_expressionChars
    rw [assignmentChars, written]
    exact ⟨_, rfl⟩
  | _ => simp [isAssignment] at assignment

theorem exists_orderItemChars {t : Tree} (item : t.isOrderItem = true) (formed : t.wellFormed = true) :
    ∃ cs, t.orderItemChars = .ok cs := by
  cases t with
  | orderItem expr direction =>
    simp only [wellFormed, Bool.and_eq_true] at formed
    obtain ⟨cs, written⟩ :=
      (formedExpression_iff.mpr ⟨formed.1.1, formed.2⟩).exists_expressionChars
    rw [orderItemChars, written]
    exact ⟨_, rfl⟩
  | _ => simp [isOrderItem] at item

private theorem exists_itemsChars {belongs : Tree → Bool} {step : Tree → Except TreeFault (List Char)}
    (steps : ∀ {t : Tree}, belongs t = true → t.wellFormed = true → ∃ cs, step t = .ok cs)
    (keyword : String) {items : List Tree} (formed : (items.all belongs && allWellFormed items) = true) :
    ∃ cs, itemsChars keyword step items = .ok cs := by
  simp only [allWellFormed_eq_all, Bool.and_eq_true, List.all_eq_true] at formed
  obtain ⟨pieces, written⟩ :=
    exists_mapM_eq_ok fun item member => steps (formed.1 item member) (formed.2 item member)
  rw [itemsChars, written]
  exact ⟨_, rfl⟩

theorem exists_clauseChars {t : Tree} (clause : t.isClause = true) (formed : t.wellFormed = true) :
    ∃ cs, t.clauseChars = .ok cs := by
  cases t with
  | matchClause pattern optional =>
    simp only [wellFormed, Bool.and_eq_true] at formed
    obtain ⟨cs, written⟩ := exists_patternChars formed.1.1 formed.2
    rw [clauseChars, written]
    exact ⟨_, rfl⟩
  | whereClause condition =>
    simp only [wellFormed, Bool.and_eq_true] at formed
    obtain ⟨cs, written⟩ := (formedExpression_iff.mpr formed).exists_expressionChars
    rw [clauseChars, written]
    exact ⟨_, rfl⟩
  | createClause pattern =>
    simp only [wellFormed, Bool.and_eq_true] at formed
    obtain ⟨cs, written⟩ := exists_patternChars formed.1 formed.2
    rw [clauseChars, written]
    exact ⟨_, rfl⟩
  | setClause assignments => exact exists_itemsChars exists_assignmentChars "SET" formed
  | withClause items => exact exists_itemsChars exists_returnItemChars "WITH" formed
  | returnClause items => exact exists_itemsChars exists_returnItemChars "RETURN" formed
  | orderByClause items => exact exists_itemsChars exists_orderItemChars "ORDER BY" formed
  | deleteClause | skipClause | limitClause => exact ⟨_, rfl⟩
  | _ => simp [isClause, rank?] at clause

end Tree

/-- A well-formed query has a text, with the values of its parameters beside it. -/
theorem Query.exists_statement {q : Query} (formed : q.toTree.wellFormed = true) :
    ∃ text, q.statement = .ok ⟨text, q.parameters⟩ := by
  simp only [toTree, Tree.wellFormed, Tree.allWellFormed_eq_all, Bool.and_eq_true,
    List.all_eq_true] at formed
  obtain ⟨pieces, written⟩ := exists_mapM_eq_ok fun clause member =>
    Tree.exists_clauseChars (formed.1.1 clause member) (formed.2 clause member)
  rw [statement, written]
  exact ⟨_, rfl⟩

end GraphQuery
