import GraphQuery.Proofs.Syntax.Completion
import GraphQuery.Proofs.Syntax.RoundTrip
import GraphQuery.Proofs.Syntax.Setwise
import GraphQuery.Value.Nesting

/-! # The values of trees that are read

What a node that is read from a document shows are names and values of the document. So a document can
hold each of them, and none of their integers is too long to be written.
-/

namespace GraphQuery

namespace Tree

/-! ## The values of a node -/

/-- The data of the caller in a node. Of parameters these are the keys and the items. -/
def rawValues : Tree → List Value
  | .literal value => [value]
  | .query _ parameters => parameters.flatMap fun entry => [entry.1, entry.2]
  | _ => []

section Values

variable {Q : Value → Prop} (text : ∀ s, Q (.text s))
include text

private theorem forall_mem_values_mapping (entries : List (String × Tree)) :
    (∀ v ∈ (mapping (entries.map fun entry => (.text entry.1, entry.2))).outline.values, Q v) ↔
      ∀ entry ∈ entries, ∀ v ∈ entry.2.outline.values, Q v := by
  rw [outline, Outline.values]
  induction entries with
  | nil => simp [outlineEntries, Outline.entryValues]
  | cons entry rest ih =>
    simp only [List.map_cons, outlineEntries, Outline.entryValues, List.cons_append, List.forall_mem_cons,
      List.forall_mem_append, text, true_and, ih]

private theorem forall_mem_values_ofProperties (properties : Option (List (String × Tree))) :
    (∀ v ∈ (ofProperties properties).outline.values, Q v) ↔ ∀ v ∈ (outlineProperties properties).values, Q v := by
  cases properties with
  | none => rfl
  | some entries =>
    rw [ofProperties, forall_mem_values_mapping text, outlineProperties, outlineFields_eq_map, Outline.values,
      Outline.fieldValues_eq_flatMap, List.flatMap_map, List.forall_mem_flatMap]

/-- The values of a node are names, those of its parts and the data of the caller. -/
theorem forall_mem_values_iff {t : Tree} (node : t.kind?.isSome = true) : (∀ v ∈ t.outline.values, Q v) ↔
    (∀ part ∈ t.parts, ∀ v ∈ part.2.outline.values, Q v) ∧ ∀ v ∈ t.rawValues, Q v := by
  cases t with
  | scalar | tuple | mapping => cases node
  | _ =>
    simp only [outline, Outline.values, Outline.fieldValues, parts, rawValues, outlines_ofNames,
      forall_mem_values_ofProperties text, outline_ofName?, ofName, Outline.name, List.forall_mem_append,
      List.forall_mem_cons, List.append_nil, List.not_mem_nil, false_implies, implies_true, and_true, true_and]

end Values

private theorem isReadable_rawValues {t : Tree} (storable : t.storable)
    (writable : ∀ part ∈ t.rawParts, part.2.isWritable = true) :
    ∀ v ∈ t.rawValues, v.isJson = true ∧ v.isWritable = true := by
  have json := isJson_of_storable storable
  cases t with
  | literal value =>
    exact List.forall_mem_singleton.mpr ⟨json _ (.head _), writable _ (.head _)⟩
  | query clauses parameters =>
    have entriesJson := ((Value.isJson_map _).mp (json _ (.head _))).2
    have entriesWritable := writable _ (.head _)
    rw [Value.isWritable_map, List.all_eq_true] at entriesWritable
    refine List.forall_mem_flatMap.mpr fun entry member => ?_
    obtain ⟨keyText, itemJson⟩ := entriesJson entry member
    obtain ⟨keyWritable, itemWritable⟩ := Bool.and_eq_true_iff.mp (entriesWritable entry member)
    have keyJson : entry.1.isJson = true := by
      rw [← Value.text_asText keyText]
      rfl
    exact List.forall_mem_cons.mpr ⟨⟨keyJson, keyWritable⟩, List.forall_mem_singleton.mpr ⟨itemJson, itemWritable⟩⟩
  | _ => exact List.forall_mem_nil _

/-- What the fields of a node show can be expressed by a document, and it can be written if their data can. -/
theorem isReadable_values {t : Tree} (content : t.IsContent) (writable : t.outline.toData.isWritable = true) :
    ∀ v ∈ t.outline.values, v.isJson = true ∧ v.isWritable = true := by
  induction t using induction_on_parts with
  | node t isNode ih =>
    obtain ⟨kind, named⟩ := Option.isSome_iff_exists.mp isNode
    cases content with
    | scalar | tuple | mapping => cases named
    | node storable =>
      have formed := wellFormed_of_storable storable
      rw [toData_storable named storable, Value.object, Value.isWritable_map, List.all_eq_true,
        List.forall_mem_map, List.forall_mem_cons, List.forall_mem_append, List.forall_mem_map] at writable
      obtain ⟨-, ofParts, ofRaw⟩ := writable
      refine (forall_mem_values_iff (fun _ => ⟨rfl, rfl⟩) isNode).mpr ⟨fun part member => ?_, ?_⟩
      · exact ih part member (isContent_of_mem_parts formed part member) (ofParts part member)
      · exact isReadable_rawValues storable ofRaw
  | scalar value =>
    cases content with
    | node storable => cases storable
    | scalar atom =>
      refine List.forall_mem_singleton.mpr ⟨?_, writable⟩
      cases value <;> first | rfl | cases atom
  | tuple items ih =>
    cases content with
    | node storable => cases storable
    | tuple all =>
      rw [outline, outlines_eq_map, Outline.toData, itemData_eq_map, List.map_map, Value.isWritable_list,
        List.all_eq_true, List.forall_mem_map] at writable
      rw [outline, Outline.values, Outline.itemValues_eq_flatMap, outlines_eq_map, List.flatMap_map,
        List.forall_mem_flatMap]
      exact fun item member => ih item member (all item member) (writable item member)
  | mapping entries ih =>
    cases content with
    | node storable => cases storable
    | @mapping properties distinct expressions all =>
      rw [outline, outlineEntries_eq_map, Outline.toData, entryData_eq_map, List.map_map, Value.isWritable_map,
        List.all_eq_true, List.forall_mem_map, List.forall_mem_map] at writable
      have entriesValues : ∀ entry ∈ properties, ∀ v ∈ entry.2.outline.values,
          v.isJson = true ∧ v.isWritable = true := fun entry member =>
        ih _ (List.mem_map_of_mem member) (all entry member)
          (Bool.and_eq_true_iff.mp (writable entry member)).2
      rw [forall_mem_values_mapping (fun _ => ⟨rfl, rfl⟩)]
      exact entriesValues

/-! ## Reading -/

open Value

theorem isWritable_of_mem_fieldDefaults (kind : String) :
    ∀ field ∈ fieldDefaults kind, field.2.isWritable = true := by
  unfold fieldDefaults
  split <;> simp [isWritable_list, isWritable_map]

private theorem isWritable_toData_node {entries : List (Value × Value)} {kind : String} {t : Tree}
    (json : (Value.map entries).isJson = true) (writable : ∀ entry ∈ entries, entry.2.isWritable = true)
    (origin : ObjectFields.IsOrigin ⟨kind, entries, ofFieldEntries entries⟩ t)
    (ih : ∀ entry ∈ entries, ∀ part, ofField entry.2 = .ok part → part.outline.toData.isWritable = true) :
    t.outline.toData.isWritable = true := by
  rw [toData_of_isOrigin json origin, Value.object, isWritable_map, List.all_eq_true, List.forall_mem_map,
    storedFields, List.forall_mem_cons, List.forall_mem_append, List.forall_mem_map]
  refine ⟨rfl, fun part member => ?_, fun part member => ?_⟩
  · rcases origin.parts part member with found | ⟨-, isDefault⟩
    · rw [find?_ofFieldEntries, Option.map_eq_some_iff] at found
      obtain ⟨item, found, read⟩ := found
      exact ih _ (exists_mem_of_lookup found) part.2 read
    · exact isWritable_of_mem_fieldDefaults kind _ isDefault
  · rcases origin.rawParts part member with found | ⟨-, isDefault⟩
    · exact writable _ (exists_mem_of_lookup found)
    · exact isWritable_of_mem_fieldDefaults kind part isDefault

private theorem isWritable_toData_mapping {entries : List (Value × Value)} {results : List (Value × Tree)}
    (writable : ∀ entry ∈ entries, (entry.1.isWritable && entry.2.isWritable) = true)
    (read : List.Forall₂ (fun entry result => entry.1 = result.1 ∧ ofField entry.2 = .ok result.2) entries results)
    (ih : ∀ entry ∈ entries, ∀ part, ofField entry.2 = .ok part → part.outline.toData.isWritable = true) :
    (mapping results).outline.toData.isWritable = true := by
  rw [outline, outlineEntries_eq_map, Outline.toData, entryData_eq_map, List.map_map, isWritable_map,
    List.all_eq_true, List.forall_mem_map]
  induction read with
  | nil => exact List.forall_mem_nil _
  | cons first _ rest =>
    obtain ⟨here, others⟩ := List.forall_mem_cons.mp ih
    obtain ⟨writableHere, writableOthers⟩ := List.forall_mem_cons.mp writable
    obtain ⟨same, readHere⟩ := first
    refine List.forall_mem_cons.mpr ⟨?_, rest writableOthers others⟩
    rw [Function.comp_apply, ← same, here _ readHere, (Bool.and_eq_true_iff.mp writableHere).1]
    rfl

private theorem isWritable_toData_tuple {items : List Value} {results : List Tree}
    (read : List.Forall₂ (fun item result => ofField item = .ok result) items results)
    (ih : ∀ item ∈ items, ∀ part, ofField item = .ok part → part.outline.toData.isWritable = true) :
    (tuple results).outline.toData.isWritable = true := by
  rw [outline, outlines_eq_map, Outline.toData, itemData_eq_map, List.map_map, isWritable_list,
    List.all_eq_true, List.forall_mem_map]
  induction read with
  | nil => exact List.forall_mem_nil _
  | cons first _ rest =>
    obtain ⟨here, others⟩ := List.forall_mem_cons.mp ih
    exact List.forall_mem_cons.mpr ⟨here _ first, rest others⟩

mutual

/-- The data of what is read can be written if what it is read from can. -/
theorem isWritable_toData : (v : Value) → v.isJson = true → v.isWritable = true →
    ∀ t, ofField v = .ok t → t.outline.toData.isWritable = true
  | .map entries => by
    intro json writable t read
    rw [isWritable_map, List.all_eq_true] at writable
    have items : ∀ entry ∈ entries, entry.2.isWritable = true :=
      fun entry member => (Bool.and_eq_true_iff.mp (writable entry member)).2
    have ih := isWritable_toData_entries entries (fun entry member => (((isJson_map _).mp json).2 entry member).2) items
    cases isKind : kindOf? entries with
    | some kind =>
      simp only [ofField, kindOf?_eq_some.mp isKind] at read
      obtain ⟨kind, -, origin⟩ := exists_isOrigin read
      exact isWritable_toData_node json items origin ih
    | none =>
      have anonymous : ∀ kind, lookup "kind" entries ≠ some (.text kind) := fun kind found => by
        rw [← kindOf?_eq_some, isKind] at found
        cases found
      obtain ⟨results, rfl, readAll⟩ := (ofField_map_eq_ok_iff anonymous).mp read
      exact isWritable_toData_mapping writable readAll ih
  | .list items => by
    intro json writable t read
    rw [isWritable_list, List.all_eq_true] at writable
    have ih := isWritable_toData_items items ((isJson_list items).mp json) writable
    obtain ⟨results, rfl, readAll⟩ := ofField_list_eq_ok_iff.mp read
    exact isWritable_toData_tuple readAll ih
  | .null | .bool _ | .int _ | .float _ | .text _ => by
    intro _ writable t read
    obtain rfl := Except.ok.inj read
    simpa only [outline, Outline.toData] using writable
  | .tuple _ | .set _ _ | .external _ _ | .entity _ | .record _ => by
    intro json
    simp [isJson] at json

private theorem isWritable_toData_items : (items : List Value) → (∀ item ∈ items, item.isJson = true) →
    (∀ item ∈ items, item.isWritable = true) →
    ∀ item ∈ items, ∀ t, ofField item = .ok t → t.outline.toData.isWritable = true
  | [], _, _ => List.forall_mem_nil _
  | item :: rest, json, writable => by
    obtain ⟨jsonFirst, jsonOthers⟩ := List.forall_mem_cons.mp json
    obtain ⟨first, others⟩ := List.forall_mem_cons.mp writable
    exact List.forall_mem_cons.mpr
      ⟨isWritable_toData item jsonFirst first, isWritable_toData_items rest jsonOthers others⟩

private theorem isWritable_toData_entries : (entries : List (Value × Value)) →
    (∀ entry ∈ entries, entry.2.isJson = true) → (∀ entry ∈ entries, entry.2.isWritable = true) →
    ∀ entry ∈ entries, ∀ t, ofField entry.2 = .ok t → t.outline.toData.isWritable = true
  | [], _, _ => List.forall_mem_nil _
  | (_, item) :: rest, json, writable => by
    obtain ⟨jsonFirst, jsonOthers⟩ := List.forall_mem_cons.mp json
    obtain ⟨first, others⟩ := List.forall_mem_cons.mp writable
    exact List.forall_mem_cons.mpr
      ⟨isWritable_toData item jsonFirst first, isWritable_toData_entries rest jsonOthers others⟩

end

/-- What a node that is read from data shows can be expressed by a document, and it can be written if the
data can. -/
theorem isReadable_values_of_ofData {data : Value} (json : data.isJson = true) (writable : data.isWritable = true)
    {t : Tree} (read : ofData data = .ok t) : ∀ v ∈ t.outline.values, v.isJson = true ∧ v.isWritable = true := by
  refine isReadable_values (.node (storable_of_ofData json read)) ?_
  cases data with
  | map entries =>
    obtain ⟨kind, named, -⟩ := exists_isOrigin read
    have readField : ofField (.map entries) = .ok t := by
      simp only [ofField, named]
      exact read
    exact isWritable_toData _ json writable t readField
  | _ => cases read

/-- The parameters of a query that is read are nested no deeper than the data. -/
theorem nestsWithin_of_ofData {data : Value} {levels : Nat} (within : data.nestsWithin levels = true) {q : Query}
    (read : ofData data = .ok q.toTree) : ∀ entry ∈ q.parameters, entry.2.nestsWithin levels = true := by
  cases data with
  | map entries =>
    obtain ⟨kind, -, origin⟩ := exists_isOrigin read
    simp only [nestsWithin, Bool.and_eq_true, entriesNestWithin_eq_all, List.all_eq_true] at within
    rcases origin.rawParts ("parameters", .map q.parameters) (.head _) with found | ⟨-, isDefault⟩
    · have inner := (within.2 _ (exists_mem_of_lookup found)).2
      simp only [nestsWithin, Bool.and_eq_true, entriesNestWithin_eq_all, List.all_eq_true] at inner
      exact fun entry member => nestsWithin_mono _ (by omega) (inner.2 entry member).2
    · have none : q.parameters = [] := by
        have isQuery : kind = "Query" := (Option.some.inj origin.kind).symm
        subst isQuery
        simpa [fieldDefaults] using isDefault
      rw [none]
      exact List.forall_mem_nil _
  | _ => cases read

end Tree

end GraphQuery
