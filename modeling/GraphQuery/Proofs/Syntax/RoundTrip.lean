import GraphQuery.Proofs.Syntax.Content
import GraphQuery.Proofs.Syntax.Reading

/-! # Storing and reading back

Reading the data of a node gives the node back, with every map in the order in which it was
written. Properties may be called like the field that names the kind, and literals and parameters
may look like nodes.
-/

namespace GraphQuery.Tree

/-- The data of a node that can be stored. -/
theorem toData_storable {t : Tree} {kind : String} (node : t.kind? = some kind)
    (storable : t.storable) : t.outline.toData = Value.object (("kind", .text kind) ::
      (t.parts.map (fun part => (part.1, part.2.outline.toData)) ++ t.rawParts)) := by
  have plain : t.rawParts.map (fun part => (part.1, part.2.plain)) = t.rawParts := by
    conv_rhs => rw [← List.map_id t.rawParts]
    apply List.map_congr_left
    intro part member
    rw [Value.plain_eq_self part.2 (isJson_of_storable storable part member), id]
  rw [toData_outline node, plain]

private theorem ofField_scalar {value : Value} (atom : value.isAtom) :
    ofField value = .ok (.scalar value) := by
  cases value <;> first | rfl | cases atom

/-- What stands in the fields of nodes is read back. -/
theorem ofField_toData {t : Tree} (content : t.IsContent) : ofField t.outline.toData = .ok t := by
  induction t using induction_on_parts with
  | node t isNode ih =>
    obtain ⟨kind, named⟩ := Option.isSome_iff_exists.mp isNode
    cases content with
    | scalar | tuple | mapping => cases named
    | node storable =>
      have formed := wellFormed_of_storable storable
      rw [toData_storable named storable]
      refine (Holds.of_parts named (·.outline.toData) id (List.map_id _).symm ?_).ofField_eq named formed
      exact fun part member => ih part member (isContent_of_mem_parts formed part member)
  | scalar value =>
    cases content with
    | node storable => cases storable
    | scalar atom => exact ofField_scalar atom
  | tuple items ih =>
    cases content with
    | node storable => cases storable
    | tuple all =>
      rw [outline, outlines_eq_map, Outline.toData, itemData_eq_map, List.map_map,
        ofField_list_eq_ok_iff]
      refine ⟨items, rfl, ?_⟩
      rw [List.forall₂_map_left_iff, List.forall₂_same]
      exact fun item member => ih item member (all item member)
  | mapping entries ih =>
    cases content with
    | node storable => cases storable
    | @mapping properties distinct expressions all =>
      rw [outline, outlineEntries_eq_map, Outline.toData, entryData_eq_map, List.map_map,
        List.map_map, ofField_map_eq_ok_iff]
      · refine ⟨_, rfl, ?_⟩
        rw [List.forall₂_map_left_iff, List.forall₂_map_right_iff, List.forall₂_same]
        intro entry member
        exact ⟨rfl, ih _ (List.mem_map_of_mem member) (all entry member)⟩
      · -- A property that is called "kind" holds an object, not a name.
        intro kind found
        obtain ⟨entry, member, same⟩ := List.mem_map.mp (Value.exists_mem_of_lookup found)
        obtain ⟨_, named⟩ := exists_kind_of_isExpression (expressions entry member)
        simp [toData_outline named, Value.object] at same

/-- A node that can be stored is read back from its data. -/
theorem ofData_toData {t : Tree} (storable : t.storable) :
    ∃ data, t.toData = .ok data ∧ ofData data = .ok t := by
  have formed := wellFormed_of_storable storable
  obtain ⟨kind, named⟩ := exists_kind_of_wellFormed formed
  refine ⟨t.outline.toData, by rw [toData, named]; rfl, ?_⟩
  rw [toData_storable named storable]
  refine (Holds.of_parts named (·.outline.toData) id (List.map_id _).symm ?_).ofData_eq named formed
  exact fun part member => ofField_toData (isContent_of_mem_parts formed part member)

/-- A query with a property called "kind", with a literal and a parameter that look like nodes, and
with fields that are absent. -/
def disguised : Tree :=
  let lookalike := Value.object [("value", .int 1), ("kind", .text "Literal")]
  .query [.matchClause (.path [
      .node "n" ["B", "A"] (some [("kind", .literal (.text "Node")), ("b", .literal lookalike)]),
      .relationship "out" none (some "r") (some []),
      .node "m" [] none]) (.bool true),
    .whereClause (.binary "AND" (.parameter "kind") (.unary "IS NULL" (.property "n" "kind"))),
    .returnClause [.variableItem "n" .null, .expressionItem (.call "count" []) (.text "kind")],
    .limitClause (.int 3)]
    [(.text "kind", .text "Query"), (.text "a", lookalike)]

theorem ofData_toData_disguised : disguised.storable ∧
    ∃ data, disguised.toData = .ok data ∧ ofData data = .ok disguised :=
  have storable : disguised.storable := by decide +kernel
  ⟨storable, ofData_toData storable⟩

end GraphQuery.Tree
