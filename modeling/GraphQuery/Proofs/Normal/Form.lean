import GraphQuery.Proofs.Normal.Expression
import GraphQuery.Proofs.Normal.Identity
import GraphQuery.Proofs.Syntax.Congruence
import GraphQuery.Proofs.Value.Order

/-! # Normal forms of well-formed trees

Taking a normal form fails only on trees that are not well-formed. `Tree.normalForm` is the normal
form as a function that has no faults, and well-formed trees of every class have it as theirs.
-/

namespace GraphQuery

namespace Tree

mutual

/-- The normal form of a tree. What has none is left as it is. -/
def normalForm : Tree → Tree
  | .literal value => .literal value.ordered
  | .unary op operand => applyUnary op (normalForm operand)
  | .binary op left right => applyBinary op (normalForm left) (normalForm right)
  | .call name args => .call name (normalForms args)
  | .node name labels properties => .node name (sortByText id labels) (propertiesForm properties)
  | .relationship direction type name properties =>
    .relationship direction type name (propertiesForm properties)
  | .path elements => .path (normalForms elements)
  | .expressionItem expr renamed => .expressionItem (normalForm expr) renamed
  | .assignment subject key value => .assignment subject key (normalForm value)
  | .orderItem expr direction => .orderItem (normalForm expr) direction
  | .matchClause pattern optional => .matchClause (normalForm pattern) optional
  | .whereClause condition => .whereClause (normalForm condition)
  | .createClause pattern => .createClause (normalForm pattern)
  | .setClause assignments => .setClause (sortByText target (normalForms assignments))
  | .withClause items => .withClause (normalForms items)
  | .returnClause items => .returnClause (normalForms items)
  | .orderByClause items => .orderByClause (normalForms items)
  | .query clauses parameters =>
    .query (sortClauses (normalForms clauses)) ((Value.sortEntries? parameters).getD parameters)
  | t => t

def normalForms : List Tree → List Tree
  | [] => []
  | t :: rest => normalForm t :: normalForms rest

/-- Properties in the order of their names, with normal forms. -/
def propertiesForm : Option (List (String × Tree)) → Option (List (String × Tree))
  | none => none
  | some entries => some (sortByText Prod.fst (entryForms entries))

/-- The normal forms under names. -/
def entryForms : List (String × Tree) → List (String × Tree)
  | [] => []
  | (name, t) :: rest => (name, normalForm t) :: entryForms rest

end

theorem normalForms_eq_map (items : List Tree) : normalForms items = items.map normalForm := by
  induction items with
  | nil => rfl
  | cons item rest ih => rw [normalForms, ih, List.map_cons]

theorem entryForms_eq_map (entries : List (String × Tree)) :
    entryForms entries = entries.map fun entry => (entry.1, entry.2.normalForm) := by
  induction entries with
  | nil => rfl
  | cons entry rest ih => rw [entryForms, ih, List.map_cons]

/-! ## Expressions -/

/-- A well-formed expression has a normal form. -/
theorem FormedExpression.normalExpression_eq {t : Tree} (formed : t.FormedExpression) :
    t.normalExpression = .ok t.normalForm := by
  induction formed with
  | literal => rfl
  | property => rfl
  | parameter => rfl
  | binary _ _ _ left right =>
    rw [normalExpression, left, right]
    rfl
  | unary _ _ operand =>
    rw [normalExpression, operand]
    rfl
  | call name _ args =>
    rw [normalExpression, normalExpressions_eq_mapM, mapM_eq_ok_map args, normalForm, normalForms_eq_map]
    rfl

theorem FormedExpression.normalForm {t : Tree} (formed : t.FormedExpression) :
    t.normalForm.FormedExpression := by
  induction formed with
  | @literal value json => exact .literal (value.reordered_ordered.isJson_eq ▸ json)
  | property subject key => exact .property subject key
  | parameter name => exact .parameter name
  | binary known _ _ left right =>
    refine applyBinary_induction (fun _ _ both => ?_) (fun _ _ => .binary known) left right
    cases both with
    | binary _ first second => exact ⟨first, second⟩
  | unary known _ operand =>
    refine applyUnary_induction (fun _ inner => ?_) (fun _ => .unary known) operand
    cases inner with
    | unary _ inner => exact inner
  | call name _ args =>
    rw [Tree.normalForm, normalForms_eq_map]
    exact .call name (List.forall_mem_map.mpr args)

theorem FormedExpression.isOrdered {t : Tree} (formed : t.FormedExpression) :
    t.normalForm.IsOrdered := by
  induction formed with
  | @literal value json =>
    have ordered := value.reordered_ordered
    exact .literal (ordered.isJson_eq ▸ json) (ordered.ordered_eq json).symm
  | property subject key => exact .property subject key
  | parameter name => exact .parameter name
  | @binary op _ _ _ _ _ _ left right =>
    refine applyBinary_induction (fun _ _ both => ?_) (fun _ _ => .binary op) left right
    cases both with
    | binary _ first second => exact ⟨first, second⟩
  | @unary op _ _ _ _ operand =>
    refine applyUnary_induction (fun _ inner => ?_) (fun _ => .unary op) operand
    cases inner with
    | unary _ inner => exact inner
  | call name _ args =>
    rw [Tree.normalForm, normalForms_eq_map]
    exact .call name (List.forall_mem_map.mpr args)

private theorem applyUnary_ne_double_negation {op : String} {operand : Tree}
    (single : ∀ t, operand ≠ .unary "NOT" (.unary "NOT" t)) (t : Tree) :
    applyUnary op operand ≠ .unary "NOT" (.unary "NOT" t) := by
  fun_cases applyUnary op operand with
  | case1 inner operand both =>
    obtain ⟨rfl, rfl⟩ : op = "NOT" ∧ inner = "NOT" := by simpa using both
    rintro rfl
    exact single _ rfl
  | case2 inner operand other =>
    intro same
    simp only [unary.injEq] at same
    simp [same.1, same.2.1] at other
  | case3 operand other =>
    intro same
    simp only [unary.injEq] at same
    exact other _ _ same.2

/-- No normal form of an expression is a double negation. -/
theorem FormedExpression.normalForm_ne_double_negation {t : Tree} (formed : t.FormedExpression) :
    ∀ operand, t.normalForm ≠ .unary "NOT" (.unary "NOT" operand) := by
  induction formed with
  | literal | property | parameter | call => simp [Tree.normalForm]
  | @binary op _ left right =>
    obtain ⟨first, second, same⟩ := exists_applyBinary_eq_binary op left.normalForm right.normalForm
    simp [Tree.normalForm, same]
  | unary _ _ ih => exact applyUnary_ne_double_negation ih

/-! ## Patterns and items -/

theorem formedExpression_of_property {entries : List (String × Tree)}
    (formed : propertiesWellFormed (some entries) = true) :
    (entries.map Prod.fst).Nodup ∧ ∀ entry ∈ entries, entry.2.FormedExpression := by
  simp only [propertiesWellFormed, entriesWellFormed_eq_all, Bool.and_eq_true, decide_eq_true_eq,
    List.all_eq_true] at formed
  exact ⟨formed.1, fun entry member => formedExpression_iff.mpr (formed.2 entry member)⟩

theorem normalProperties_eq {properties : Option (List (String × Tree))}
    (formed : propertiesWellFormed properties = true) :
    normalProperties properties = .ok (propertiesForm properties) := by
  cases properties with
  | none => rfl
  | some entries =>
    obtain ⟨-, all⟩ := formedExpression_of_property formed
    have steps : ∀ entry ∈ sortByText Prod.fst entries,
        normalProperty entry = .ok (entry.1, entry.2.normalForm) := by
      intro entry member
      rw [sortByText_eq_sortByKey, (sortByKey_perm _ _).mem_iff] at member
      rw [normalProperty, (all entry member).normalExpression_eq]
      rfl
    rw [normalProperties, mapM_eq_ok_map steps, propertiesForm, entryForms_eq_map,
      sortByText_eq_sortByKey, sortByText_eq_sortByKey, sortByKey_map]
    rfl

theorem normalElement_eq {t : Tree} (element : t.isPathElement = true) (formed : t.wellFormed = true) :
    t.normalElement = .ok t.normalForm := by
  cases t with
  | node name labels properties =>
    rw [normalElement, normalProperties_eq formed]
    rfl
  | relationship direction type name properties =>
    simp only [wellFormed, Bool.and_eq_true] at formed
    rw [normalElement, normalProperties_eq formed.2]
    rfl
  | _ => simp [isPathElement] at element

theorem normalPattern_eq {t : Tree} (pattern : t.isPattern = true) (formed : t.wellFormed = true) :
    t.normalPattern = .ok t.normalForm := by
  cases element : t.isPathElement with
  | true =>
    have plain := normalElement_eq element formed
    cases t with
    | node | relationship => simpa [normalPattern, isPathElement] using plain
    | _ => simp [isPathElement] at element
  | false =>
    cases t with
    | path elements =>
      simp only [wellFormed, allWellFormed_eq_all, Bool.and_eq_true, List.all_eq_true] at formed
      have steps : ∀ item ∈ elements, item.normalElement = .ok item.normalForm :=
        fun item member => normalElement_eq (formed.1 item member) (formed.2 item member)
      rw [normalPattern, mapM_eq_ok_map steps, normalForm, normalForms_eq_map]
      rfl
    | node | relationship => simp [isPathElement] at element
    | _ => simp [isPattern] at pattern

theorem normalReturnItem_eq {t : Tree} (item : t.isReturnItem = true) (formed : t.wellFormed = true) :
    t.normalReturnItem = .ok t.normalForm := by
  cases t with
  | variableItem name renamed => rfl
  | expressionItem expr renamed =>
    simp only [wellFormed, Bool.and_eq_true] at formed
    rw [normalReturnItem, (formedExpression_iff.mpr ⟨formed.1.1, formed.2⟩).normalExpression_eq]
    rfl
  | _ => simp [isReturnItem] at item

theorem normalAssignment_eq {t : Tree} (assignment : t.isAssignment = true)
    (formed : t.wellFormed = true) : t.normalAssignment = .ok t.normalForm := by
  cases t with
  | assignment subject key value =>
    simp only [wellFormed, Bool.and_eq_true] at formed
    rw [normalAssignment, (formedExpression_iff.mpr formed).normalExpression_eq]
    rfl
  | _ => simp [isAssignment] at assignment

theorem normalOrderItem_eq {t : Tree} (item : t.isOrderItem = true) (formed : t.wellFormed = true) :
    t.normalOrderItem = .ok t.normalForm := by
  cases t with
  | orderItem expr direction =>
    simp only [wellFormed, Bool.and_eq_true] at formed
    rw [normalOrderItem, (formedExpression_iff.mpr ⟨formed.1.1, formed.2⟩).normalExpression_eq]
    rfl
  | _ => simp [isOrderItem] at item

/-! ## Clauses and queries -/

private theorem mapM_eq_normalForms {belongs : Tree → Bool} {step : Tree → Except TreeFault Tree}
    (steps : ∀ {t : Tree}, belongs t = true → t.wellFormed = true → step t = .ok t.normalForm)
    {items : List Tree} (formed : (items.all belongs && allWellFormed items) = true) :
    items.mapM step = .ok (normalForms items) := by
  simp only [allWellFormed_eq_all, Bool.and_eq_true, List.all_eq_true] at formed
  rw [normalForms_eq_map,
    mapM_eq_ok_map fun item member => steps (formed.1 item member) (formed.2 item member)]

theorem normalClause_eq {t : Tree} (clause : t.isClause = true) (formed : t.wellFormed = true) :
    t.normalClause = .ok t.normalForm := by
  cases t with
  | matchClause pattern optional =>
    simp only [wellFormed, Bool.and_eq_true] at formed
    rw [normalClause, normalPattern_eq formed.1.1 formed.2]
    rfl
  | whereClause condition =>
    simp only [wellFormed, Bool.and_eq_true] at formed
    rw [normalClause, (formedExpression_iff.mpr formed).normalExpression_eq]
    rfl
  | createClause pattern =>
    simp only [wellFormed, Bool.and_eq_true] at formed
    rw [normalClause, normalPattern_eq formed.1 formed.2]
    rfl
  | setClause assignments =>
    rw [normalClause, mapM_eq_normalForms normalAssignment_eq formed]
    rfl
  | withClause items | returnClause items =>
    rw [normalClause, mapM_eq_normalForms normalReturnItem_eq formed]
    rfl
  | orderByClause items =>
    rw [normalClause, mapM_eq_normalForms normalOrderItem_eq formed]
    rfl
  | deleteClause | skipClause | limitClause => rfl
  | _ => simp [isClause, rank?] at clause

/-! ## Normal forms are well-formed -/

private theorem propertiesForm_wellFormed {properties : Option (List (String × Tree))}
    (formed : propertiesWellFormed properties = true) :
    propertiesWellFormed (propertiesForm properties) = true := by
  cases properties with
  | none => rfl
  | some entries =>
    obtain ⟨distinct, all⟩ := formedExpression_of_property formed
    have perm := sortByKey_perm Prod.fst (entryForms entries)
    simp only [propertiesForm, propertiesWellFormed, sortByText_eq_sortByKey, Bool.and_eq_true,
      decide_eq_true_eq, entriesWellFormed_eq_all, List.all_eq_true]
    constructor
    · rw [(perm.map Prod.fst).nodup_iff, entryForms_eq_map, List.map_map]
      exact distinct
    · intro entry member
      rw [perm.mem_iff, entryForms_eq_map, List.mem_map] at member
      obtain ⟨original, member, rfl⟩ := member
      exact formedExpression_iff.mp (all original member).normalForm

private theorem expression_normalForm {t : Tree} (expression : t.isExpression = true)
    (formed : t.wellFormed = true) :
    t.normalForm.wellFormed = true ∧ t.normalForm.role = t.role := by
  obtain ⟨keeps, kept⟩ := formedExpression_iff.mp (formedExpression_iff.mpr ⟨expression, formed⟩).normalForm
  rw [isExpression_eq_role, decide_eq_true_eq] at expression keeps
  exact ⟨kept, keeps.trans expression.symm⟩

private theorem all_normalForms {belongs : Tree → Bool}
    (byRole : ∀ {t other : Tree}, t.role = other.role → belongs t = belongs other) {items : List Tree}
    (formed : (items.all belongs && allWellFormed items) = true)
    (kept : ∀ item ∈ items, item.normalForm.wellFormed = true ∧ item.normalForm.role = item.role) :
    ((normalForms items).all belongs && allWellFormed (normalForms items)) = true := by
  simp only [normalForms_eq_map, allWellFormed_eq_all, Bool.and_eq_true, List.all_eq_true,
    List.forall_mem_map] at formed ⊢
  exact ⟨fun item member => (byRole (kept item member).2).trans (formed.1 item member),
    fun item member => (kept item member).1⟩

private theorem all_of_perm {belongs : Tree → Bool} {items others : List Tree} (perm : items.Perm others)
    (formed : (others.all belongs && allWellFormed others) = true) :
    (items.all belongs && allWellFormed items) = true := by
  simp only [allWellFormed_eq_all, Bool.and_eq_true, List.all_eq_true, perm.mem_iff] at formed ⊢
  exact formed

theorem sortClauses_perm (clauses : List Tree) : (sortClauses clauses).Perm clauses :=
  stableSort_perm _ clauses

mutual

/-- The normal form of a well-formed tree is well-formed and has the role of the tree. -/
theorem wellFormed_normalForm : (t : Tree) → t.wellFormed = true →
    t.normalForm.wellFormed = true ∧ t.normalForm.role = t.role
  | .literal _, formed | .property _ _, formed | .parameter _, formed | .binary _ _ _, formed
  | .unary _ _, formed | .call _ _, formed => expression_normalForm rfl formed
  | .node name labels properties, formed => ⟨propertiesForm_wellFormed formed, rfl⟩
  | .relationship direction type name properties, formed => by
    simp only [wellFormed, Bool.and_eq_true] at formed
    exact ⟨by simp [normalForm, wellFormed, formed.1, propertiesForm_wellFormed formed.2], rfl⟩
  | .path elements, formed => by
    have kept := allWellFormed_normalForms elements (Bool.and_eq_true_iff.mp formed).2
    exact ⟨all_normalForms isPathElement_eq_of_role formed kept, rfl⟩
  | .variableItem _ _, formed | .deleteClause _ _, formed | .skipClause _, formed
  | .limitClause _, formed => ⟨formed, rfl⟩
  | .expressionItem expr renamed, formed => by
    simp only [wellFormed, Bool.and_eq_true] at formed
    obtain ⟨kept, role⟩ := wellFormed_normalForm expr formed.2
    refine ⟨?_, rfl⟩
    simp only [normalForm, wellFormed, isExpression_eq_of_role role, kept, formed, Bool.and_self]
  | .assignment subject key value, formed => by
    simp only [wellFormed, Bool.and_eq_true] at formed
    obtain ⟨kept, role⟩ := wellFormed_normalForm value formed.2
    refine ⟨?_, rfl⟩
    simp only [normalForm, wellFormed, isExpression_eq_of_role role, kept, formed, Bool.and_self]
  | .orderItem expr direction, formed => by
    simp only [wellFormed, Bool.and_eq_true] at formed
    obtain ⟨kept, role⟩ := wellFormed_normalForm expr formed.2
    refine ⟨?_, rfl⟩
    simp only [normalForm, wellFormed, isExpression_eq_of_role role, kept, formed, Bool.and_self]
  | .matchClause pattern optional, formed => by
    simp only [wellFormed, Bool.and_eq_true] at formed
    obtain ⟨kept, role⟩ := wellFormed_normalForm pattern formed.2
    refine ⟨?_, rfl⟩
    simp only [normalForm, wellFormed, isPattern_eq_of_role role, kept, formed, Bool.and_self]
  | .whereClause condition, formed => by
    simp only [wellFormed, Bool.and_eq_true] at formed
    obtain ⟨kept, role⟩ := wellFormed_normalForm condition formed.2
    refine ⟨?_, rfl⟩
    simp only [normalForm, wellFormed, isExpression_eq_of_role role, kept, formed, Bool.and_self]
  | .createClause pattern, formed => by
    simp only [wellFormed, Bool.and_eq_true] at formed
    obtain ⟨kept, role⟩ := wellFormed_normalForm pattern formed.2
    refine ⟨?_, rfl⟩
    simp only [normalForm, wellFormed, isPattern_eq_of_role role, kept, formed, Bool.and_self]
  | .setClause assignments, formed => by
    have kept := allWellFormed_normalForms assignments (Bool.and_eq_true_iff.mp formed).2
    have all := all_normalForms isAssignment_eq_of_role formed kept
    exact ⟨all_of_perm (sortByText_eq_sortByKey _ _ ▸ sortByKey_perm _ _) all, rfl⟩
  | .withClause items, formed | .returnClause items, formed => by
    have kept := allWellFormed_normalForms items (Bool.and_eq_true_iff.mp formed).2
    exact ⟨all_normalForms isReturnItem_eq_of_role formed kept, rfl⟩
  | .orderByClause items, formed => by
    have kept := allWellFormed_normalForms items (Bool.and_eq_true_iff.mp formed).2
    exact ⟨all_normalForms isOrderItem_eq_of_role formed kept, rfl⟩
  | .query clauses parameters, formed => by
    simp only [wellFormed, Bool.and_eq_true] at formed
    obtain ⟨⟨areClauses, named⟩, formed⟩ := formed
    have kept := allWellFormed_normalForms clauses formed
    have all := all_of_perm (sortClauses_perm _)
      (all_normalForms isClause_eq_of_role (by rw [areClauses, formed]; rfl) kept)
    rw [Bool.and_eq_true] at all
    obtain ⟨texts, distinct⟩ := areParameters_iff.mp named
    have perm := sortByKey_perm (fun entry : Value × Value => entry.1.asText) parameters
    have sorted : areParameters (sortByKey (fun entry => entry.1.asText) parameters) = true := by
      rw [areParameters_iff, (perm.map _).nodup_iff]
      exact ⟨fun entry member => texts entry (perm.mem_iff.mp member), distinct⟩
    refine ⟨?_, rfl⟩
    rw [normalForm, Value.sortEntries?_of_texts texts]
    simp only [wellFormed, Option.getD_some, sorted, all, Bool.and_self]
  | .scalar _, formed | .tuple _, formed | .mapping _, formed => by simp [wellFormed] at formed

private theorem allWellFormed_normalForms : (items : List Tree) → allWellFormed items = true →
    ∀ item ∈ items, item.normalForm.wellFormed = true ∧ item.normalForm.role = item.role
  | [], _ => by simp
  | item :: rest, formed => by
    simp only [allWellFormed, Bool.and_eq_true] at formed
    exact List.forall_mem_cons.mpr ⟨wellFormed_normalForm item formed.1,
      allWellFormed_normalForms rest formed.2⟩

end

end Tree

namespace Query

/-- The normal form of a query, as one that every query has. -/
def normalForm (q : Query) : Query :=
  ⟨Tree.sortClauses (Tree.normalForms q.clauses), (Value.sortEntries? q.parameters).getD q.parameters⟩

theorem toTree_normalForm (q : Query) : q.normalForm.toTree = q.toTree.normalForm := rfl

/-- A well-formed query has a normal form. -/
theorem normal_eq {q : Query} (formed : q.toTree.wellFormed = true) : q.normal = .ok q.normalForm := by
  simp only [toTree, Tree.wellFormed, Bool.and_eq_true] at formed
  obtain ⟨⟨clauses, parameters⟩, all⟩ := formed
  obtain ⟨texts, -⟩ := Tree.areParameters_iff.mp parameters
  rw [normal, Tree.mapM_eq_normalForms Tree.normalClause_eq (by rw [clauses, all]; rfl), normalForm,
    Value.sortEntries?_of_texts texts]
  rfl

end Query

end GraphQuery
