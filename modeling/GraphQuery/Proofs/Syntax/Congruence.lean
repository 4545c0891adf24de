import GraphQuery.Proofs.Syntax.WellFormed
import GraphQuery.Proofs.Value.Parts

/-! # Congruences of trees

A congruence generated by rules relates trees that come from each other by finitely many steps, each
of which follows a rule, forwards or backwards, at any depth. Trees that may stand in the same
places have one role; rules that keep roles and well-formedness generate a congruence that does.
-/

namespace GraphQuery

/-- A node with one of its trees left out. -/
inductive Frame where
  | binaryLeft (op : String) (right : Tree)
  | binaryRight (op : String) (left : Tree)
  | unary (op : String)
  | call (name : String) (before after : List Tree)
  | node (name : String) (labels : List String) (before : List (String × Tree)) (key : String)
      (after : List (String × Tree))
  | relationship (direction : String) (type name : Option String) (before : List (String × Tree))
      (key : String) (after : List (String × Tree))
  | path (before after : List Tree)
  | expressionItem (renamed : Value)
  | assignment (subject key : String)
  | orderItem (direction : String)
  | matchClause (optional : Value)
  | whereClause
  | createClause
  | setClause (before after : List Tree)
  | withClause (before after : List Tree)
  | returnClause (before after : List Tree)
  | orderByClause (before after : List Tree)
  | query (before after : List Tree) (parameters : List (Value × Value))

/-- The node with a tree in the open place. -/
def Frame.plug (t : Tree) : Frame → Tree
  | .binaryLeft op right => .binary op t right
  | .binaryRight op left => .binary op left t
  | .unary op => .unary op t
  | .call name before after => .call name (before ++ t :: after)
  | .node name labels before key after => .node name labels (some (before ++ (key, t) :: after))
  | .relationship direction type name before key after =>
    .relationship direction type name (some (before ++ (key, t) :: after))
  | .path before after => .path (before ++ t :: after)
  | .expressionItem renamed => .expressionItem t renamed
  | .assignment subject key => .assignment subject key t
  | .orderItem direction => .orderItem t direction
  | .matchClause optional => .matchClause t optional
  | .whereClause => .whereClause t
  | .createClause => .createClause t
  | .setClause before after => .setClause (before ++ t :: after)
  | .withClause before after => .withClause (before ++ t :: after)
  | .returnClause before after => .returnClause (before ++ t :: after)
  | .orderByClause before after => .orderByClause (before ++ t :: after)
  | .query before after parameters => .query (before ++ t :: after) parameters

namespace Tree

/-- The least congruence that contains the rules. -/
inductive Congruent (Rule : Tree → Tree → Prop) : Tree → Tree → Prop where
  | rule {t other : Tree} : Rule t other → Congruent Rule t other
  | refl (t : Tree) : Congruent Rule t t
  | symm {t other : Tree} : Congruent Rule t other → Congruent Rule other t
  | trans {first second third : Tree} :
    Congruent Rule first second → Congruent Rule second third → Congruent Rule first third
  | inside (frame : Frame) {t other : Tree} :
    Congruent Rule t other → Congruent Rule (frame.plug t) (frame.plug other)

namespace Congruent

variable {Rule : Tree → Tree → Prop}

/-- Nodes are related if the trees in a list of theirs are, one by one. -/
theorem of_items (build : List Tree → Tree) (frame : List Tree → List Tree → Frame)
    (plug : ∀ before t after, (frame before after).plug t = build (before ++ t :: after))
    {items others : List Tree} (same : List.Forall₂ (Congruent Rule) items others) :
    Congruent Rule (build items) (build others) := by
  refine exchange_forall₂ build refl (fun _ _ _ => trans) (fun before after item other first => ?_) same
  have here := Congruent.inside (frame before after) first
  rwa [plug, plug] at here

/-- Nodes are related if their properties are, one by one. -/
theorem of_fields (build : List (String × Tree) → Tree)
    (frame : List (String × Tree) → String → List (String × Tree) → Frame)
    (plug : ∀ before key t after, (frame before key after).plug t = build (before ++ (key, t) :: after))
    {fields others : List (String × Tree)}
    (same : List.Forall₂ (fun a b => a.1 = b.1 ∧ Congruent Rule a.2 b.2) fields others) :
    Congruent Rule (build fields) (build others) := by
  refine exchange_forall₂ build refl (fun _ _ _ => trans) ?_ same
  rintro before after ⟨key, t⟩ ⟨_, u⟩ ⟨rfl, first⟩
  have here := Congruent.inside (frame before key after) first
  rwa [plug, plug] at here

end Congruent

/-! ## Roles -/

/-- What a tree stands for. Trees of one role may stand in the same places. -/
inductive Role where
  | expression
  | element
  | path
  | returnItem
  | assignment
  | orderItem
  | clause (rank : Nat)
  | other
  deriving DecidableEq

def role : Tree → Role
  | .literal _ | .property _ _ | .parameter _ | .binary _ _ _ | .unary _ _ | .call _ _ => .expression
  | .node _ _ _ | .relationship _ _ _ _ => .element
  | .path _ => .path
  | .variableItem _ _ | .expressionItem _ _ => .returnItem
  | .assignment _ _ _ => .assignment
  | .orderItem _ _ => .orderItem
  | .matchClause _ _ => .clause 1
  | .whereClause _ => .clause 2
  | .createClause _ => .clause 3
  | .deleteClause _ _ => .clause 4
  | .setClause _ => .clause 5
  | .withClause _ => .clause 6
  | .returnClause _ => .clause 7
  | .orderByClause _ => .clause 8
  | .skipClause _ => .clause 9
  | .limitClause _ => .clause 10
  | .query _ _ | .scalar _ | .tuple _ | .mapping _ => .other

theorem isExpression_eq_role (t : Tree) : t.isExpression = decide (t.role = .expression) := by
  cases t <;> rfl

theorem isPathElement_eq_role (t : Tree) : t.isPathElement = decide (t.role = .element) := by
  cases t <;> rfl

theorem isPattern_eq_role (t : Tree) : t.isPattern = decide (t.role = .element ∨ t.role = .path) := by
  cases t <;> rfl

theorem isReturnItem_eq_role (t : Tree) : t.isReturnItem = decide (t.role = .returnItem) := by
  cases t <;> rfl

theorem isAssignment_eq_role (t : Tree) : t.isAssignment = decide (t.role = .assignment) := by
  cases t <;> rfl

theorem isOrderItem_eq_role (t : Tree) : t.isOrderItem = decide (t.role = .orderItem) := by
  cases t <;> rfl

def Role.rank? : Role → Option Nat
  | .clause rank => some rank
  | _ => none

theorem rank?_eq_role (t : Tree) : t.rank? = t.role.rank? := by
  cases t <;> rfl

section Same

variable {t other : Tree} (same : t.role = other.role)
include same

theorem isExpression_eq_of_role : t.isExpression = other.isExpression := by
  rw [isExpression_eq_role, isExpression_eq_role, same]

theorem isPathElement_eq_of_role : t.isPathElement = other.isPathElement := by
  rw [isPathElement_eq_role, isPathElement_eq_role, same]

theorem isPattern_eq_of_role : t.isPattern = other.isPattern := by
  simp only [isPattern_eq_role, same]

theorem isReturnItem_eq_of_role : t.isReturnItem = other.isReturnItem := by
  rw [isReturnItem_eq_role, isReturnItem_eq_role, same]

theorem isAssignment_eq_of_role : t.isAssignment = other.isAssignment := by
  rw [isAssignment_eq_role, isAssignment_eq_role, same]

theorem isOrderItem_eq_of_role : t.isOrderItem = other.isOrderItem := by
  rw [isOrderItem_eq_role, isOrderItem_eq_role, same]

theorem rank?_eq_of_role : t.rank? = other.rank? := by
  rw [rank?_eq_role, rank?_eq_role, same]

theorem isClause_eq_of_role : t.isClause = other.isClause := by
  rw [isClause, isClause, rank?_eq_of_role same]

end Same

theorem role_plug (frame : Frame) (t other : Tree) : (frame.plug t).role = (frame.plug other).role := by
  cases frame <;> rfl

/-- A tree may be replaced by a well-formed one of its role. -/
theorem wellFormed_plug_eq (frame : Frame) {t other : Tree} (role : t.role = other.role)
    (formed : t.wellFormed = other.wellFormed) :
    (frame.plug t).wellFormed = (frame.plug other).wellFormed := by
  cases frame <;>
    simp only [Frame.plug, wellFormed, propertiesWellFormed, allWellFormed_eq_all,
      entriesWellFormed_eq_all, isExpression_eq_of_role role, isPathElement_eq_of_role role,
      isPattern_eq_of_role role, isReturnItem_eq_of_role role, isAssignment_eq_of_role role,
      isOrderItem_eq_of_role role, isClause_eq_of_role role, List.all_append, List.all_cons,
      List.map_append, List.map_cons, formed]

theorem wellFormed_of_plug {frame : Frame} {t : Tree} (formed : (frame.plug t).wellFormed) :
    t.wellFormed := by
  cases frame <;>
    simp_all [Frame.plug, wellFormed, propertiesWellFormed, allWellFormed_eq_all,
      entriesWellFormed_eq_all]

namespace Congruent

variable {Rule : Tree → Tree → Prop} (keepsRole : ∀ t other, Rule t other → t.role = other.role)
include keepsRole

/-- Congruent trees have one role if the rules keep it. -/
theorem role_eq {t other : Tree} (same : Congruent Rule t other) : t.role = other.role := by
  induction same with
  | rule follows => exact keepsRole _ _ follows
  | refl t => rfl
  | symm _ ih => exact ih.symm
  | trans _ _ first second => exact first.trans second
  | inside frame _ _ => exact role_plug frame _ _

/-- Congruent trees are well-formed together if the rules keep it. -/
theorem wellFormed_eq (keepsFormed : ∀ t other, Rule t other → t.wellFormed = other.wellFormed)
    {t other : Tree} (same : Congruent Rule t other) : t.wellFormed = other.wellFormed := by
  induction same with
  | rule follows => exact keepsFormed _ _ follows
  | refl t => rfl
  | symm _ ih => exact ih.symm
  | trans _ _ first second => exact first.trans second
  | inside frame inner ih => exact wellFormed_plug_eq frame (inner.role_eq keepsRole) ih

end Congruent

end Tree

end GraphQuery
