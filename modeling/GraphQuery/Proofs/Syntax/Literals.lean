import GraphQuery.Proofs.Syntax.Congruence
import GraphQuery.Syntax.Literals

/-! # Replacing literals

Replacing the literals of a tree changes nothing else: what a tree stands for stays the same, and the
tree is congruent to the one with the new literals.
-/

namespace GraphQuery.Tree

/-! ## Lists of trees -/

theorem literalsOfItems_eq_flatMap (items : List Tree) : literalsOfItems items = items.flatMap literals := by
  induction items with
  | nil => rfl
  | cons item rest ih => rw [literalsOfItems, ih, List.flatMap_cons]

section Lists

variable (f : Value → Value)

theorem mapLiteralsOfItems_eq_map (items : List Tree) :
    mapLiteralsOfItems f items = items.map (mapLiterals f) := by
  induction items with
  | nil => rfl
  | cons item rest ih => rw [mapLiteralsOfItems, ih, List.map_cons]

def mapField (entry : String × Tree) : String × Tree :=
  (entry.1, entry.2.mapLiterals f)

theorem mapLiteralsOfFields_eq_map (entries : List (String × Tree)) :
    mapLiteralsOfFields f entries = entries.map (mapField f) := by
  induction entries with
  | nil => rfl
  | cons entry rest ih => rw [mapLiteralsOfFields, ih, List.map_cons, mapField]

theorem rank?_mapLiterals (t : Tree) : (t.mapLiterals f).rank? = t.rank? := by
  cases t <;> rfl

/-! ## The literals afterwards -/

mutual

/-- The literals afterwards are those that the literals were replaced with. -/
theorem literals_mapLiterals : (t : Tree) → (t.mapLiterals f).literals = t.literals.map f
  | .literal _ | .property _ _ | .parameter _ | .variableItem _ _ | .deleteClause _ _ | .skipClause _
  | .limitClause _ | .query _ _ | .scalar _ | .tuple _ | .mapping _ => rfl
  | .binary _ left right => by
    simp only [mapLiterals, literals, literals_mapLiterals left, literals_mapLiterals right, List.map_append]
  | .unary _ operand => literals_mapLiterals operand
  | .call _ args => literals_mapLiterals_items args
  | .node _ _ properties | .relationship _ _ _ properties => literals_mapLiterals_properties properties
  | .path elements => literals_mapLiterals_items elements
  | .expressionItem expr _ | .orderItem expr _ => literals_mapLiterals expr
  | .assignment _ _ value => literals_mapLiterals value
  | .matchClause pattern _ | .createClause pattern => literals_mapLiterals pattern
  | .whereClause condition => literals_mapLiterals condition
  | .setClause items | .withClause items | .returnClause items | .orderByClause items =>
    literals_mapLiterals_items items

private theorem literals_mapLiterals_items : (items : List Tree) →
    literalsOfItems (mapLiteralsOfItems f items) = (literalsOfItems items).map f
  | [] => rfl
  | item :: rest => by
    simp only [mapLiteralsOfItems, literalsOfItems, literals_mapLiterals item,
      literals_mapLiterals_items rest, List.map_append]

private theorem literals_mapLiterals_properties : (properties : Option (List (String × Tree))) →
    literalsOfProperties (mapLiteralsOfProperties f properties) = (literalsOfProperties properties).map f
  | none => rfl
  | some entries => literals_mapLiterals_fields entries

private theorem literals_mapLiterals_fields : (entries : List (String × Tree)) →
    literalsOfFields (mapLiteralsOfFields f entries) = (literalsOfFields entries).map f
  | [] => rfl
  | (_, t) :: rest => by
    simp only [mapLiteralsOfFields, literalsOfFields, literals_mapLiterals t,
      literals_mapLiterals_fields rest, List.map_append]

end

end Lists

/-! ## Literals that stay -/

section Stay

variable {f : Value → Value}

mutual

/-- A tree whose literals stay is left as it is. -/
theorem mapLiterals_eq_self : (t : Tree) → (∀ value ∈ t.literals, f value = value) → t.mapLiterals f = t
  | .property _ _, _ | .parameter _, _ | .variableItem _ _, _ | .deleteClause _ _, _ | .skipClause _, _
  | .limitClause _, _ | .query _ _, _ | .scalar _, _ | .tuple _, _ | .mapping _, _ => rfl
  | .literal value, stay => by rw [mapLiterals, stay value (List.mem_singleton_self value)]
  | .binary op left right, stay => by
    obtain ⟨ofLeft, ofRight⟩ := List.forall_mem_append.mp stay
    rw [mapLiterals, mapLiterals_eq_self left ofLeft, mapLiterals_eq_self right ofRight]
  | .unary op operand, stay => congrArg (unary op) (mapLiterals_eq_self operand stay)
  | .call name args, stay => congrArg (call name) (mapLiterals_items_eq_self args stay)
  | .node name labels properties, stay =>
    congrArg (node name labels) (mapLiterals_properties_eq_self properties stay)
  | .relationship direction type name properties, stay =>
    congrArg (relationship direction type name) (mapLiterals_properties_eq_self properties stay)
  | .path elements, stay => congrArg path (mapLiterals_items_eq_self elements stay)
  | .expressionItem expr renamed, stay =>
    congrArg (expressionItem · renamed) (mapLiterals_eq_self expr stay)
  | .assignment subject key value, stay =>
    congrArg (assignment subject key) (mapLiterals_eq_self value stay)
  | .orderItem expr direction, stay => congrArg (orderItem · direction) (mapLiterals_eq_self expr stay)
  | .matchClause pattern optional, stay =>
    congrArg (matchClause · optional) (mapLiterals_eq_self pattern stay)
  | .whereClause condition, stay => congrArg whereClause (mapLiterals_eq_self condition stay)
  | .createClause pattern, stay => congrArg createClause (mapLiterals_eq_self pattern stay)
  | .setClause items, stay => congrArg setClause (mapLiterals_items_eq_self items stay)
  | .withClause items, stay => congrArg withClause (mapLiterals_items_eq_self items stay)
  | .returnClause items, stay => congrArg returnClause (mapLiterals_items_eq_self items stay)
  | .orderByClause items, stay => congrArg orderByClause (mapLiterals_items_eq_self items stay)

private theorem mapLiterals_items_eq_self : (items : List Tree) →
    (∀ value ∈ literalsOfItems items, f value = value) → mapLiteralsOfItems f items = items
  | [], _ => rfl
  | item :: rest, stay => by
    obtain ⟨first, others⟩ := List.forall_mem_append.mp stay
    rw [mapLiteralsOfItems, mapLiterals_eq_self item first, mapLiterals_items_eq_self rest others]

private theorem mapLiterals_properties_eq_self : (properties : Option (List (String × Tree))) →
    (∀ value ∈ literalsOfProperties properties, f value = value) →
    mapLiteralsOfProperties f properties = properties
  | none, _ => rfl
  | some entries, stay => congrArg some (mapLiterals_fields_eq_self entries stay)

private theorem mapLiterals_fields_eq_self : (entries : List (String × Tree)) →
    (∀ value ∈ literalsOfFields entries, f value = value) → mapLiteralsOfFields f entries = entries
  | [], _ => rfl
  | (name, t) :: rest, stay => by
    obtain ⟨first, others⟩ := List.forall_mem_append.mp stay
    rw [mapLiteralsOfFields, mapLiterals_eq_self t first, mapLiterals_fields_eq_self rest others]

end

end Stay

/-! ## Congruence -/

/-- A literal in the place of a related one. -/
inductive LiteralRule (related : Value → Value → Prop) : Tree → Tree → Prop where
  | literal {v w : Value} : related v w → LiteralRule related (.literal v) (.literal w)

section Congruence

variable {f : Value → Value} {related : Value → Value → Prop} (relates : ∀ v, related (f v) v)
include relates

set_option linter.unusedSectionVars false

mutual

/-- A tree with related literals is congruent to the tree. -/
theorem congruent_mapLiterals : (t : Tree) → Congruent (LiteralRule related) (t.mapLiterals f) t
  | .literal value => .rule (.literal (relates value))
  | .property _ _ | .parameter _ | .variableItem _ _ | .deleteClause _ _ | .skipClause _
  | .limitClause _ | .query _ _ | .scalar _ | .tuple _ | .mapping _ => .refl _
  | .binary op left right =>
    ((congruent_mapLiterals left).inside (.binaryLeft op (right.mapLiterals f))).trans
      ((congruent_mapLiterals right).inside (.binaryRight op left))
  | .unary op operand => (congruent_mapLiterals operand).inside (.unary op)
  | .call name args =>
    .of_items (.call name) (.call name) (fun _ _ _ => rfl) (congruent_mapLiterals_items args)
  | .node _ _ none | .relationship _ _ _ none => .refl _
  | .node name labels (some entries) =>
    .of_fields (fun fields => .node name labels (some fields)) (.node name labels) (fun _ _ _ _ => rfl)
      (congruent_mapLiterals_fields entries)
  | .relationship direction type name (some entries) =>
    .of_fields (fun fields => .relationship direction type name (some fields))
      (.relationship direction type name) (fun _ _ _ _ => rfl) (congruent_mapLiterals_fields entries)
  | .path elements => .of_items .path .path (fun _ _ _ => rfl) (congruent_mapLiterals_items elements)
  | .expressionItem expr renamed => (congruent_mapLiterals expr).inside (.expressionItem renamed)
  | .assignment subject key value => (congruent_mapLiterals value).inside (.assignment subject key)
  | .orderItem expr direction => (congruent_mapLiterals expr).inside (.orderItem direction)
  | .matchClause pattern optional => (congruent_mapLiterals pattern).inside (.matchClause optional)
  | .whereClause condition => (congruent_mapLiterals condition).inside .whereClause
  | .createClause pattern => (congruent_mapLiterals pattern).inside .createClause
  | .setClause items =>
    .of_items .setClause .setClause (fun _ _ _ => rfl) (congruent_mapLiterals_items items)
  | .withClause items =>
    .of_items .withClause .withClause (fun _ _ _ => rfl) (congruent_mapLiterals_items items)
  | .returnClause items =>
    .of_items .returnClause .returnClause (fun _ _ _ => rfl) (congruent_mapLiterals_items items)
  | .orderByClause items =>
    .of_items .orderByClause .orderByClause (fun _ _ _ => rfl) (congruent_mapLiterals_items items)

private theorem congruent_mapLiterals_items : (items : List Tree) →
    List.Forall₂ (Congruent (LiteralRule related)) (mapLiteralsOfItems f items) items
  | [] => .nil
  | item :: rest => .cons (congruent_mapLiterals item) (congruent_mapLiterals_items rest)

private theorem congruent_mapLiterals_fields : (entries : List (String × Tree)) →
    List.Forall₂ (fun a b => a.1 = b.1 ∧ Congruent (LiteralRule related) a.2 b.2)
      (mapLiteralsOfFields f entries) entries
  | [] => .nil
  | (_, t) :: rest => .cons ⟨rfl, congruent_mapLiterals t⟩ (congruent_mapLiterals_fields rest)

end

end Congruence

end GraphQuery.Tree
