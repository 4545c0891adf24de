import GraphQuery.Proofs.Syntax.Congruence
import GraphQuery.Proofs.Syntax.Content
import GraphQuery.Syntax.Fault

/-! # Trees up to the order of entries

Properties, the maps in literals and the parameters of a query are maps, whose order has no meaning.
Trees that differ only in such orders are congruent by `Tree.Reordering`, and `Tree.arranged` is the
one of them whose maps are in the order of their keys.
-/

namespace GraphQuery.Tree

/-- Changing the order of the entries of a map. -/
inductive Reordering : Tree → Tree → Prop where
  | literal {v w : Value} : v.Reordered w → Reordering (.literal v) (.literal w)
  | nodeProperties (name : String) (labels : List String) {entries others : List (String × Tree)} :
    entries.Perm others → Reordering (.node name labels (some entries)) (.node name labels (some others))
  | relationshipProperties (direction : String) (type name : Option String)
      {entries others : List (String × Tree)} : entries.Perm others →
    Reordering (.relationship direction type name (some entries))
      (.relationship direction type name (some others))
  | parameters (clauses : List Tree) {entries others : List (Value × Value)} : entries.Perm others →
    Reordering (.query clauses entries) (.query clauses others)
  | parameter (clauses : List Tree) (before after : List (Value × Value)) (key : Value) {v w : Value} :
    v.Reordered w →
    Reordering (.query clauses (before ++ (key, v) :: after)) (.query clauses (before ++ (key, w) :: after))

theorem Reordering.role_eq {t other : Tree} (same : Reordering t other) : t.role = other.role := by
  cases same <;> rfl

theorem Reordering.wellFormed_eq {t other : Tree} (same : Reordering t other) :
    t.wellFormed = other.wellFormed := by
  cases same with
  | literal same => exact same.isJson_eq
  | nodeProperties name labels perm => exact propertiesWellFormed_of_perm perm
  | relationshipProperties direction type name perm =>
    rw [wellFormed, wellFormed, propertiesWellFormed_of_perm perm]
  | parameters clauses perm => rw [wellFormed, wellFormed, areParameters_of_perm perm]
  | @parameter clauses before after key v w same =>
    have kept : areParameters (before ++ (key, v) :: after) =
        areParameters (before ++ (key, w) :: after) := by
      rw [Bool.eq_iff_iff, areParameters_iff, areParameters_iff]
      simp only [List.forall_mem_append, List.forall_mem_cons, List.map_append, List.map_cons]
    rw [wellFormed, wellFormed, kept]

/-! ## Arranged trees -/

mutual

/-- A tree with every map in the order of its keys. -/
def arranged : Tree → Tree
  | .literal value => .literal value.ordered
  | .binary op left right => .binary op (arranged left) (arranged right)
  | .unary op operand => .unary op (arranged operand)
  | .call name args => .call name (arrangedItems args)
  | .node name labels properties => .node name labels (arrangedProperties properties)
  | .relationship direction type name properties =>
    .relationship direction type name (arrangedProperties properties)
  | .path elements => .path (arrangedItems elements)
  | .expressionItem expr renamed => .expressionItem (arranged expr) renamed
  | .assignment subject key value => .assignment subject key (arranged value)
  | .orderItem expr direction => .orderItem (arranged expr) direction
  | .matchClause pattern optional => .matchClause (arranged pattern) optional
  | .whereClause condition => .whereClause (arranged condition)
  | .createClause pattern => .createClause (arranged pattern)
  | .setClause assignments => .setClause (arrangedItems assignments)
  | .withClause items => .withClause (arrangedItems items)
  | .returnClause items => .returnClause (arrangedItems items)
  | .orderByClause items => .orderByClause (arrangedItems items)
  | .query clauses parameters =>
    .query (arrangedItems clauses)
      (sortByText (fun entry => entry.1.asText) (Value.orderedEntries parameters))
  | .tuple items => .tuple (arrangedItems items)
  | .mapping entries => .mapping (sortByText (fun entry => entry.1.asText) (arrangedEntries entries))
  | t => t

def arrangedItems : List Tree → List Tree
  | [] => []
  | item :: rest => arranged item :: arrangedItems rest

/-- Arranges properties that may be absent. -/
def arrangedProperties : Option (List (String × Tree)) → Option (List (String × Tree))
  | none => none
  | some entries => some (sortByText Prod.fst (arrangedFields entries))

def arrangedFields : List (String × Tree) → List (String × Tree)
  | [] => []
  | (name, t) :: rest => (name, arranged t) :: arrangedFields rest

def arrangedEntries : List (Value × Tree) → List (Value × Tree)
  | [] => []
  | (key, t) :: rest => (key, arranged t) :: arrangedEntries rest

end

theorem arrangedItems_eq_map (items : List Tree) : arrangedItems items = items.map arranged := by
  induction items with
  | nil => rfl
  | cons item rest ih => rw [arrangedItems, ih, List.map_cons]

theorem arrangedFields_eq_map (entries : List (String × Tree)) :
    arrangedFields entries = entries.map fun entry => (entry.1, entry.2.arranged) := by
  induction entries with
  | nil => rfl
  | cons entry rest ih => rw [arrangedFields, ih, List.map_cons]

theorem arrangedEntries_eq_map (entries : List (Value × Tree)) :
    arrangedEntries entries = entries.map fun entry => (entry.1, entry.2.arranged) := by
  induction entries with
  | nil => rfl
  | cons entry rest ih => rw [arrangedEntries, ih, List.map_cons]

/-! ## Every tree is congruent to its arranged form -/

private theorem congruent_orderedEntries (clauses : List Tree) (entries : List (Value × Value)) :
    Congruent Reordering (.query clauses entries) (.query clauses (Value.orderedEntries entries)) := by
  have same : List.Forall₂ (fun a b => a.1 = b.1 ∧ Value.Reordered a.2 b.2) entries
      (Value.orderedEntries entries) := by
    rw [Value.orderedEntries_eq_map, List.forall₂_map_right_iff, List.forall₂_same]
    exact fun entry _ => ⟨rfl, entry.2.reordered_ordered⟩
  refine exchange_forall₂ (Tree.query clauses) Congruent.refl (fun _ _ _ => Congruent.trans) ?_ same
  rintro before after ⟨key, item⟩ ⟨_, other⟩ ⟨rfl, first⟩
  exact .rule (.parameter clauses before after key first)

mutual

/-- Arranging a well-formed tree only reorders entries. -/
theorem congruent_arranged : (t : Tree) → t.wellFormed = true → Congruent Reordering t t.arranged
  | .literal value, _ => .rule (.literal value.reordered_ordered)
  | .property _ _, _ | .parameter _, _ | .variableItem _ _, _ | .deleteClause _ _, _
  | .skipClause _, _ | .limitClause _, _ => .refl _
  | .binary op left right, formed => by
    simp only [wellFormed, Bool.and_eq_true] at formed
    exact ((congruent_arranged left formed.1.2).inside (.binaryLeft op right)).trans
      ((congruent_arranged right formed.2).inside (.binaryRight op left.arranged))
  | .unary op operand, formed => by
    simp only [wellFormed, Bool.and_eq_true] at formed
    exact (congruent_arranged operand formed.2).inside (.unary op)
  | .call name args, formed => by
    simp only [wellFormed, Bool.and_eq_true] at formed
    exact .of_items (.call name) (.call name) (fun _ _ _ => rfl) (forall₂_arrangedItems args formed.2)
  | .node name labels none, _ | .relationship direction type name none, _ => .refl _
  | .node name labels (some entries), formed => by
    simp only [wellFormed, propertiesWellFormed, Bool.and_eq_true] at formed
    refine (Congruent.of_fields (fun fields => .node name labels (some fields)) (.node name labels)
      (fun _ _ _ _ => rfl) (forall₂_arrangedFields entries formed.2)).trans (.rule ?_)
    rw [arranged, arrangedProperties, sortByText_eq_sortByKey]
    exact .nodeProperties name labels (sortByKey_perm _ _).symm
  | .relationship direction type name (some entries), formed => by
    simp only [wellFormed, propertiesWellFormed, Bool.and_eq_true] at formed
    refine (Congruent.of_fields (fun fields => .relationship direction type name (some fields))
      (.relationship direction type name) (fun _ _ _ _ => rfl)
      (forall₂_arrangedFields entries formed.2.2)).trans (.rule ?_)
    rw [arranged, arrangedProperties, sortByText_eq_sortByKey]
    exact .relationshipProperties direction type name (sortByKey_perm _ _).symm
  | .path elements, formed => by
    simp only [wellFormed, Bool.and_eq_true] at formed
    exact .of_items .path .path (fun _ _ _ => rfl) (forall₂_arrangedItems elements formed.2)
  | .expressionItem expr renamed, formed => by
    simp only [wellFormed, Bool.and_eq_true] at formed
    exact (congruent_arranged expr formed.2).inside (.expressionItem renamed)
  | .assignment subject key value, formed => by
    simp only [wellFormed, Bool.and_eq_true] at formed
    exact (congruent_arranged value formed.2).inside (.assignment subject key)
  | .orderItem expr direction, formed => by
    simp only [wellFormed, Bool.and_eq_true] at formed
    exact (congruent_arranged expr formed.2).inside (.orderItem direction)
  | .matchClause pattern optional, formed => by
    simp only [wellFormed, Bool.and_eq_true] at formed
    exact (congruent_arranged pattern formed.2).inside (.matchClause optional)
  | .whereClause condition, formed => by
    simp only [wellFormed, Bool.and_eq_true] at formed
    exact (congruent_arranged condition formed.2).inside .whereClause
  | .createClause pattern, formed => by
    simp only [wellFormed, Bool.and_eq_true] at formed
    exact (congruent_arranged pattern formed.2).inside .createClause
  | .setClause assignments, formed => by
    simp only [wellFormed, Bool.and_eq_true] at formed
    exact .of_items .setClause .setClause (fun _ _ _ => rfl) (forall₂_arrangedItems assignments formed.2)
  | .withClause items, formed => by
    simp only [wellFormed, Bool.and_eq_true] at formed
    exact .of_items .withClause .withClause (fun _ _ _ => rfl) (forall₂_arrangedItems items formed.2)
  | .returnClause items, formed => by
    simp only [wellFormed, Bool.and_eq_true] at formed
    exact .of_items .returnClause .returnClause (fun _ _ _ => rfl) (forall₂_arrangedItems items formed.2)
  | .orderByClause items, formed => by
    simp only [wellFormed, Bool.and_eq_true] at formed
    exact .of_items .orderByClause .orderByClause (fun _ _ _ => rfl) (forall₂_arrangedItems items formed.2)
  | .query clauses parameters, formed => by
    simp only [wellFormed, Bool.and_eq_true] at formed
    refine (Congruent.of_items (.query · parameters) (.query · · parameters)
      (fun _ _ _ => rfl) (forall₂_arrangedItems clauses formed.2)).trans ?_
    refine (congruent_orderedEntries (arrangedItems clauses) parameters).trans (.rule ?_)
    rw [arranged, sortByText_eq_sortByKey]
    exact .parameters _ (sortByKey_perm _ _).symm
  | .scalar _, formed | .tuple _, formed | .mapping _, formed => by cases formed

private theorem forall₂_arrangedItems : (items : List Tree) → allWellFormed items = true →
    List.Forall₂ (Congruent Reordering) items (arrangedItems items)
  | [], _ => .nil
  | item :: rest, formed => by
    simp only [allWellFormed, Bool.and_eq_true] at formed
    exact .cons (congruent_arranged item formed.1) (forall₂_arrangedItems rest formed.2)

private theorem forall₂_arrangedFields : (entries : List (String × Tree)) →
    entriesWellFormed entries = true →
    List.Forall₂ (fun a b => a.1 = b.1 ∧ Congruent Reordering a.2 b.2) entries (arrangedFields entries)
  | [], _ => .nil
  | (_, t) :: rest, formed => by
    simp only [entriesWellFormed, Bool.and_eq_true] at formed
    exact .cons ⟨rfl, congruent_arranged t formed.1.2⟩ (forall₂_arrangedFields rest formed.2)

end

theorem wellFormed_arranged {t : Tree} (formed : t.wellFormed) : t.arranged.wellFormed := by
  rw [← formed]
  exact ((congruent_arranged t formed).wellFormed_eq (fun _ _ => Reordering.role_eq)
    fun _ _ => Reordering.wellFormed_eq).symm

end GraphQuery.Tree
