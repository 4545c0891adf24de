import GraphQuery.Proofs.Assoc
import GraphQuery.Proofs.Value.Reordering

/-! # The documents of values

Among the values that documents can express, the tagged form tells different values apart, and
sorting the fields of a tagged form is the same as ordering the value.
-/

namespace GraphQuery.Value

theorem text_asText {key : Value} (isText : key.text?.isSome = true) : .text key.asText = key := by
  cases key <;> simp_all [text?, asText]

private theorem tagged_of_text {key : Value} (isText : key.text?.isSome = true) :
    key.tagged = .text key.asText := by
  rw [← text_asText isText, tagged, asText]

private theorem fieldsOf?_taggedEntries {entries : List (Value × Value)}
    (texts : ∀ entry ∈ entries, entry.1.text?.isSome = true) :
    fieldsOf? (taggedEntries entries) = some (entries.map fun entry => (entry.1.asText, entry.2.tagged)) := by
  induction entries with
  | nil => rfl
  | cons entry rest ih =>
    obtain ⟨key, item⟩ := entry
    obtain ⟨isText, texts⟩ := List.forall_mem_cons.mp texts
    rw [taggedEntries, tagged_of_text isText, fieldsOf?, ih texts, List.map_cons, Option.map_some]

/-- Entries with text keys become the fields of an object, for every type of map. -/
theorem ofTaggedEntries_of_texts (typeName : String) {entries : List (Value × Value)}
    (texts : ∀ entry ∈ entries, entry.1.text?.isSome = true) :
    ofTaggedEntries typeName (taggedEntries entries) =
      .object (entries.map fun entry => (entry.1.asText, entry.2.tagged)) := by
  rw [ofTaggedEntries, fieldsOf?_taggedEntries texts]

/-- The tagged form of a map with text keys is an object. -/
theorem tagged_map {entries : List (Value × Value)}
    (texts : ∀ entry ∈ entries, entry.1.text?.isSome = true) :
    tagged (.map entries) = .object (entries.map fun entry => (entry.1.asText, entry.2.tagged)) := by
  rw [tagged, ofTaggedEntries_of_texts _ texts]

theorem ofJsonItems_eq_map (items : List Json) : ofJsonItems items = items.map ofJson := by
  induction items with
  | nil => rfl
  | cons item rest ih => rw [ofJsonItems, ih, List.map_cons]

theorem ofJsonFields_eq_map (fields : List (String × Json)) :
    ofJsonFields fields = fields.map fun field => (.text field.1, ofJson field.2) := by
  induction fields with
  | nil => rfl
  | cons field rest ih => rw [ofJsonFields, ih, List.map_cons]

mutual

/-- The tagged form of a value of a document stands for the value. -/
theorem ofJson_tagged : (v : Value) → v.isJson = true → ofJson v.tagged = v
  | .null, _ | .bool _, _ | .int _, _ | .float _, _ | .text _, _ => rfl
  | .list items, json => by
    rw [tagged, ofJson, ofJsonItems_taggedItems items ((isJson_list items).mp json)]
  | .map entries, json => by
    have all := ((isJson_map entries).mp json).2
    rw [tagged_map fun entry member => (all entry member).1, ofJson, ofJsonFields_eq_map, List.map_map,
      map_taggedEntries entries all]
  | .tuple _, json | .set _ _, json | .external _ _, json | .entity _, json | .record _, json => by
    simp [isJson] at json

private theorem ofJsonItems_taggedItems : (items : List Value) → (∀ item ∈ items, item.isJson = true) →
    ofJsonItems (taggedItems items) = items
  | [], _ => rfl
  | item :: rest, json => by
    obtain ⟨first, others⟩ := List.forall_mem_cons.mp json
    rw [taggedItems, ofJsonItems, ofJson_tagged item first, ofJsonItems_taggedItems rest others]

private theorem map_taggedEntries : (entries : List (Value × Value)) →
    (∀ entry ∈ entries, entry.1.text?.isSome = true ∧ entry.2.isJson = true) →
    entries.map ((fun field => (.text field.1, ofJson field.2)) ∘
      fun entry => (entry.1.asText, entry.2.tagged)) = entries
  | [], _ => rfl
  | (key, item) :: rest, json => by
    obtain ⟨⟨isText, first⟩, others⟩ := List.forall_mem_cons.mp json
    rw [List.map_cons, map_taggedEntries rest others]
    simp only [Function.comp_apply, ofJson_tagged item first, text_asText isText]

end

mutual

/-- Sorting the fields of a tagged form orders the value. -/
theorem sorted_tagged : (v : Value) → v.isJson = true → v.tagged.sorted = v.ordered.tagged
  | .null, _ | .bool _, _ | .int _, _ | .float _, _ | .text _, _ => rfl
  | .list items, json => by
    rw [tagged, Json.sorted, ordered, tagged, sortedItems_taggedItems items ((isJson_list items).mp json)]
  | .map entries, json => by
    have all := ((isJson_map entries).mp json).2
    have orderedTexts : ∀ entry ∈ sortByKey (fun entry => entry.1.asText) (orderedEntries entries),
        entry.1.text?.isSome = true := by
      intro entry member
      rw [(sortByKey_perm _ _).mem_iff, orderedEntries_eq_map, List.mem_map] at member
      obtain ⟨original, member, rfl⟩ := member
      exact (all original member).1
    calc (tagged (.map entries)).sorted
        = .object (sortByKey Prod.fst (Json.sortedFields
            (entries.map fun entry => (entry.1.asText, entry.2.tagged)))) := by
          rw [tagged_map fun entry member => (all entry member).1, Json.sorted, sortByText_eq_sortByKey]
      _ = .object (sortByKey Prod.fst
            ((orderedEntries entries).map fun entry => (entry.1.asText, entry.2.tagged))) := by
          rw [sortedFields_taggedEntries entries all]
      _ = .object ((sortByKey (fun entry => entry.1.asText) (orderedEntries entries)).map
            fun entry => (entry.1.asText, entry.2.tagged)) := by
          rw [sortByKey_map]
      _ = (ordered (.map entries)).tagged := by
          rw [ordered, sortByText_eq_sortByKey, tagged_map orderedTexts]
  | .tuple _, json | .set _ _, json | .external _ _, json | .entity _, json | .record _, json => by
    simp [isJson] at json

private theorem sortedItems_taggedItems : (items : List Value) →
    (∀ item ∈ items, item.isJson = true) →
    Json.sortedItems (taggedItems items) = taggedItems (orderedItems items)
  | [], _ => rfl
  | item :: rest, json => by
    obtain ⟨first, others⟩ := List.forall_mem_cons.mp json
    rw [taggedItems, Json.sortedItems, sorted_tagged item first, sortedItems_taggedItems rest others,
      orderedItems, taggedItems]

private theorem sortedFields_taggedEntries : (entries : List (Value × Value)) →
    (∀ entry ∈ entries, entry.1.text?.isSome = true ∧ entry.2.isJson = true) →
    Json.sortedFields (entries.map fun entry => (entry.1.asText, entry.2.tagged)) =
      (orderedEntries entries).map fun entry => (entry.1.asText, entry.2.tagged)
  | [], _ => rfl
  | (key, item) :: rest, json => by
    obtain ⟨⟨isText, first⟩, others⟩ := List.forall_mem_cons.mp json
    rw [List.map_cons, Json.sortedFields, sorted_tagged item first,
      sortedFields_taggedEntries rest others, orderedEntries, List.map_cons]

end

/-- Values of documents whose tagged forms are the same up to the order of fields have one ordered
form. -/
theorem ordered_eq_of_sorted_tagged {v w : Value} (jsonV : v.isJson) (jsonW : w.isJson)
    (same : v.tagged.sorted = w.tagged.sorted) : v.ordered = w.ordered := by
  rw [sorted_tagged v jsonV, sorted_tagged w jsonW] at same
  rw [← ofJson_tagged v.ordered (v.reordered_ordered.isJson_eq ▸ jsonV), same,
    ofJson_tagged w.ordered (w.reordered_ordered.isJson_eq ▸ jsonW)]

/-! ## Plain forms -/

private theorem object_asText {entries : List (Value × Value)}
    (texts : ∀ entry ∈ entries, entry.1.text?.isSome = true) :
    object (entries.map fun entry => (entry.1.asText, entry.2)) = .map entries := by
  rw [object, List.map_map, map.injEq]
  conv_rhs => rw [← List.map_id entries]
  apply List.map_congr_left
  intro entry member
  rw [Function.comp_apply, text_asText (texts entry member), id]

mutual

/-- A value of a document is its own plain form. -/
theorem plain_eq_self : (v : Value) → v.isJson = true → v.plain = v
  | .null, _ | .bool _, _ | .int _, _ | .float _, _ | .text _, _ => rfl
  | .list items, json => by rw [plain, plainItems_eq_self items ((isJson_list items).mp json)]
  | .map entries, json => by
    obtain ⟨distinct, all⟩ := (isJson_map entries).mp json
    rw [plain, plainEntries_eq_map entries fun entry member => (all entry member).2,
      Assoc.ofPairs_eq_self (by simpa only [List.map_map, Function.comp_def] using distinct),
      object_asText fun entry member => (all entry member).1]
  | .tuple _, json | .set _ _, json | .external _ _, json | .entity _, json | .record _, json => by
    simp [isJson] at json

private theorem plainItems_eq_self : (items : List Value) → (∀ item ∈ items, item.isJson = true) →
    plainItems items = items
  | [], _ => rfl
  | item :: rest, json => by
    obtain ⟨first, others⟩ := List.forall_mem_cons.mp json
    rw [plainItems, plain_eq_self item first, plainItems_eq_self rest others]

private theorem plainEntries_eq_map : (entries : List (Value × Value)) →
    (∀ entry ∈ entries, entry.2.isJson = true) →
    plainEntries entries = entries.map fun entry => (entry.1.asText, entry.2)
  | [], _ => rfl
  | (key, item) :: rest, json => by
    obtain ⟨first, others⟩ := List.forall_mem_cons.mp json
    rw [plainEntries, plain_eq_self item first, plainEntries_eq_map rest others, List.map_cons]

end

end GraphQuery.Value
