import GraphQuery.Json.Basic
import GraphQuery.Proofs.Sorting

/-! # Documents up to the order of fields

Objects with the same names in the same order are told apart by their sorted forms as far as their
fields are, and so are the kinds that their first fields name.
-/

namespace GraphQuery.Json

theorem sortedItems_eq_map (items : List Json) : sortedItems items = items.map sorted := by
  induction items with
  | nil => rfl
  | cons item rest ih => rw [sortedItems, ih, List.map_cons]

theorem sortedFields_eq_map (fields : List (String × Json)) :
    sortedFields fields = fields.map fun field => (field.1, field.2.sorted) := by
  induction fields with
  | nil => rfl
  | cons field rest ih => rw [sortedFields, ih, List.map_cons]

theorem sorted_object (fields : List (String × Json)) :
    (object fields).sorted = .object (sortByKey Prod.fst (sortedFields fields)) := by
  rw [sorted, sortByText_eq_sortByKey]

private theorem names_sortedFields (fields : List (String × Json)) :
    (sortedFields fields).map Prod.fst = fields.map Prod.fst := by
  rw [sortedFields_eq_map, List.map_map]
  rfl

/-- Objects with the same distinct names have the same sorted fields if they have one sorted form. -/
theorem sortedFields_eq_of_sorted_eq {fields others : List (String × Json)}
    (names : fields.map Prod.fst = others.map Prod.fst) (distinct : (fields.map Prod.fst).Nodup)
    (same : (object fields).sorted = (object others).sorted) :
    sortedFields fields = sortedFields others := by
  rw [sorted_object, sorted_object, object.injEq] at same
  apply eq_of_sortByKey_eq _ _ same
  · rw [names_sortedFields, names_sortedFields, names]
  · rw [names_sortedFields]
    exact distinct

/-- The kinds of objects with one sorted form are the same. -/
theorem kind_eq_of_sorted_eq {kind other : String} {fields others : List (String × Json)}
    (unique : "kind" ∉ others.map Prod.fst)
    (same : (object (("kind", .text kind) :: fields)).sorted =
      (object (("kind", .text other) :: others)).sorted) : kind = other := by
  rw [sorted_object, sorted_object, object.injEq] at same
  have member : ("kind", Json.text kind) ∈ sortedFields (("kind", .text other) :: others) := by
    rw [← (sortByKey_perm Prod.fst _).mem_iff, ← same, (sortByKey_perm Prod.fst _).mem_iff]
    exact List.mem_cons_self ..
  rcases List.mem_cons.mp member with first | later
  · simpa [sorted] using first
  · exact absurd (names_sortedFields others ▸ List.mem_map_of_mem later) unique

end GraphQuery.Json
