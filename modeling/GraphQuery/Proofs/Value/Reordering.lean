import GraphQuery.Proofs.Sorting
import GraphQuery.Proofs.Value.Parts
import GraphQuery.Value.Plain
import GraphQuery.Value.Throughout
import Mathlib.Data.List.Nodup

/-! # Values up to the order of entries

`Value.Reordered` relates values that differ only in the order of the entries of maps, at any depth
that maps, lists and tuples reach. `Value.ordered` picks one of the values that are related to it,
and the same one for all of them if the keys of every map differ in their texts, as they do in the
values of documents.
-/

namespace GraphQuery.Value

/-- Equality up to the order of the entries of maps. -/
inductive Reordered : Value → Value → Prop where
  | refl (v : Value) : Reordered v v
  | symm {v w : Value} : Reordered v w → Reordered w v
  | trans {u v w : Value} : Reordered u v → Reordered v w → Reordered u w
  | entries {entries others : List (Value × Value)} :
    entries.Perm others → Reordered (.map entries) (.map others)
  | entry (before after : List (Value × Value)) (key : Value) {item other : Value} :
    Reordered item other →
      Reordered (.map (before ++ (key, item) :: after)) (.map (before ++ (key, other) :: after))
  | listItem (before after : List Value) {item other : Value} :
    Reordered item other →
      Reordered (.list (before ++ item :: after)) (.list (before ++ other :: after))
  | tupleItem (before after : List Value) {item other : Value} :
    Reordered item other →
      Reordered (.tuple (before ++ item :: after)) (.tuple (before ++ other :: after))

theorem orderedItems_eq_map (items : List Value) : orderedItems items = items.map ordered := by
  induction items with
  | nil => rfl
  | cons item rest ih => rw [orderedItems, ih, List.map_cons]

theorem orderedEntries_eq_map (entries : List (Value × Value)) :
    orderedEntries entries = entries.map fun entry => (entry.1, entry.2.ordered) := by
  induction entries with
  | nil => rfl
  | cons entry rest ih => rw [orderedEntries, ih, List.map_cons]

theorem ordered_map (entries : List (Value × Value)) :
    ordered (.map entries) = .map (sortByKey (fun entry => entry.1.asText)
      (entries.map fun entry => (entry.1, entry.2.ordered))) := by
  rw [ordered, orderedEntries_eq_map, sortByText_eq_sortByKey]

/-! ## Every value is related to its ordered form -/

namespace Reordered

private theorem list_of_forall₂ {items others : List Value} (same : List.Forall₂ Reordered items others) :
    Reordered (.list items) (.list others) :=
  exchange_forall₂ .list refl (fun _ _ _ => trans) (fun before after _ _ => listItem before after) same

private theorem tuple_of_forall₂ {items others : List Value} (same : List.Forall₂ Reordered items others) :
    Reordered (.tuple items) (.tuple others) :=
  exchange_forall₂ .tuple refl (fun _ _ _ => trans) (fun before after _ _ => tupleItem before after) same

theorem map_of_forall₂ {entries others : List (Value × Value)}
    (same : List.Forall₂ (fun a b => a.1 = b.1 ∧ Reordered a.2 b.2) entries others) :
    Reordered (.map entries) (.map others) := by
  refine exchange_forall₂ .map refl (fun _ _ _ => trans) ?_ same
  rintro before after ⟨key, item⟩ ⟨_, other⟩ ⟨rfl, first⟩
  exact entry before after key first

end Reordered

mutual

/-- Ordering a value only reorders entries. -/
theorem reordered_ordered : (v : Value) → Reordered v v.ordered
  | .map entries => by
    have items := Reordered.map_of_forall₂ (forall₂_orderedEntries entries)
    exact items.trans (.entries (sortByText_eq_sortByKey _ _ ▸ (sortByKey_perm _ _).symm))
  | .list items => Reordered.list_of_forall₂ (forall₂_orderedItems items)
  | .tuple items => Reordered.tuple_of_forall₂ (forall₂_orderedItems items)
  | .null | .bool _ | .int _ | .float _ | .text _ | .set _ _ | .external _ _ | .entity _ | .record _ =>
    .refl _

private theorem forall₂_orderedItems :
    (items : List Value) → List.Forall₂ Reordered items (orderedItems items)
  | [] => .nil
  | item :: rest => .cons (reordered_ordered item) (forall₂_orderedItems rest)

private theorem forall₂_orderedEntries : (entries : List (Value × Value)) →
    List.Forall₂ (fun a b => a.1 = b.1 ∧ Reordered a.2 b.2) entries (orderedEntries entries)
  | [] => .nil
  | (_, item) :: rest => .cons ⟨rfl, reordered_ordered item⟩ (forall₂_orderedEntries rest)

end

/-! ## Ordered values -/

mutual

/-- Ordering a value again changes nothing. -/
theorem ordered_ordered : (v : Value) → v.ordered.ordered = v.ordered
  | .map entries => by
    have items : ∀ entry ∈ sortByText (fun entry => entry.1.asText) (orderedEntries entries),
        (entry.1, entry.2.ordered) = entry := by
      intro entry member
      rw [sortByText_eq_sortByKey, (sortByKey_perm _ _).mem_iff] at member
      rw [ordered_orderedEntries entries entry member]
    rw [ordered, ordered, orderedEntries_eq_map (sortByText _ _), List.map_congr_left items, List.map_id',
      sortByText_sortByText]
  | .list items => by
    rw [ordered, ordered, orderedItems_eq_map (orderedItems items),
      List.map_congr_left (ordered_orderedItems items), List.map_id']
  | .tuple items => by
    rw [ordered, ordered, orderedItems_eq_map (orderedItems items),
      List.map_congr_left (ordered_orderedItems items), List.map_id']
  | .null | .bool _ | .int _ | .float _ | .text _ | .set _ _ | .external _ _ | .entity _ | .record _ => rfl

private theorem ordered_orderedItems :
    (items : List Value) → ∀ item ∈ orderedItems items, item.ordered = item
  | [] => List.forall_mem_nil _
  | item :: rest => List.forall_mem_cons.mpr ⟨ordered_ordered item, ordered_orderedItems rest⟩

private theorem ordered_orderedEntries :
    (entries : List (Value × Value)) → ∀ entry ∈ orderedEntries entries, entry.2.ordered = entry.2
  | [] => List.forall_mem_nil _
  | (_, item) :: rest => List.forall_mem_cons.mpr ⟨ordered_ordered item, ordered_orderedEntries rest⟩

end

/-! ## Values of documents -/

mutual

/-- Whether a document can express a value: it is built from null, truth values, numbers, texts,
lists and maps whose keys are distinct texts. -/
def isJson : Value → Bool
  | .null | .bool _ | .int _ | .float _ | .text _ => true
  | .list items => areJson items
  | .map entries => decide (entries.map fun entry => entry.1.asText).Nodup && entriesAreJson entries
  | _ => false

/-- Whether a document can express each of several values. -/
def areJson : List Value → Bool
  | [] => true
  | item :: rest => isJson item && areJson rest

/-- Whether all keys are texts and a document can express all items. -/
def entriesAreJson : List (Value × Value) → Bool
  | [] => true
  | (key, item) :: rest => key.text?.isSome && isJson item && entriesAreJson rest

end

theorem areJson_eq_all (items : List Value) : areJson items = items.all isJson := by
  induction items with
  | nil => rfl
  | cons item rest ih => rw [areJson, ih, List.all_cons]

theorem entriesAreJson_eq_all (entries : List (Value × Value)) :
    entriesAreJson entries = entries.all fun entry => entry.1.text?.isSome && entry.2.isJson := by
  induction entries with
  | nil => rfl
  | cons entry rest ih => rw [entriesAreJson, ih, List.all_cons]

theorem isJson_list (items : List Value) : isJson (.list items) = true ↔ ∀ item ∈ items, item.isJson := by
  rw [isJson, areJson_eq_all, List.all_eq_true]

theorem isJson_map (entries : List (Value × Value)) :
    isJson (.map entries) = true ↔ (entries.map fun entry => entry.1.asText).Nodup ∧
      ∀ entry ∈ entries, entry.1.text?.isSome ∧ entry.2.isJson := by
  simp only [isJson, entriesAreJson_eq_all, Bool.and_eq_true, decide_eq_true_eq, List.all_eq_true]

/-- Whether a document can express a value does not depend on the order of entries. -/
theorem Reordered.isJson_eq {v w : Value} (same : Reordered v w) : v.isJson = w.isJson := by
  induction same with
  | refl v => rfl
  | symm _ ih => exact ih.symm
  | trans _ _ first second => exact first.trans second
  | entries perm =>
    rw [Bool.eq_iff_iff, isJson_map, isJson_map, (perm.map _).nodup_iff]
    simp only [perm.mem_iff]
  | entry before after key _ ih =>
    rw [Bool.eq_iff_iff, isJson_map, isJson_map]
    simp only [List.map_append, List.map_cons, List.forall_mem_append, List.forall_mem_cons, ih]
  | listItem before after _ ih =>
    rw [Bool.eq_iff_iff, isJson_list, isJson_list]
    simp only [List.forall_mem_append, List.forall_mem_cons, ih]
  | tupleItem before after _ ih => rfl

/-- Whether every integer can be written does not depend on the order of entries. -/
theorem Reordered.isWritable_eq {v w : Value} (same : Reordered v w) : v.isWritable = w.isWritable := by
  induction same with
  | refl v => rfl
  | symm _ ih => exact ih.symm
  | trans _ _ first second => exact first.trans second
  | entries perm => rw [isWritable_map, isWritable_map, perm.all_eq]
  | entry before after key _ ih => simp only [isWritable_map, List.all_append, List.all_cons, ih]
  | listItem before after _ ih => simp only [isWritable_list, List.all_append, List.all_cons, ih]
  | tupleItem before after _ ih => simp only [isWritable_tuple, List.all_append, List.all_cons, ih]

/-! ## One ordered form -/

/-- Whether keys differ does not depend on the order of entries. -/
theorem Reordered.keysDiffer_iff {Name : Type} {name : Value → Name} {v w : Value}
    (same : Reordered v w) : v.KeysDiffer name ↔ w.KeysDiffer name := by
  induction same with
  | refl v => rfl
  | symm _ ih => exact ih.symm
  | trans _ _ first second => exact first.trans second
  | entries perm =>
    rw [Value.keysDiffer_iff, Value.keysDiffer_iff]
    simp only [keys, parts, List.forall_mem_map, perm.mem_iff, ((perm.map Prod.fst).map name).nodup_iff]
  | entry before after key _ ih =>
    rw [Value.keysDiffer_iff, Value.keysDiffer_iff]
    simp only [keys, parts, List.map_append, List.map_cons, List.forall_mem_append, List.forall_mem_cons, ih]
  | listItem before after _ ih | tupleItem before after _ ih =>
    rw [Value.keysDiffer_iff, Value.keysDiffer_iff]
    simp only [keys, parts, List.forall_mem_append, List.forall_mem_cons, ih]

private theorem ordered_map_eq_of_perm {entries others : List (Value × Value)}
    (perm : entries.Perm others) (distinct : (entries.map fun entry => entry.1.asText).Nodup) :
    ordered (.map entries) = ordered (.map others) := by
  rw [ordered_map, ordered_map, map.injEq]
  refine sortByKey_eq_of_perm ?_ (perm.map _)
  apply List.inj_on_of_nodup_map
  simpa only [List.map_map, Function.comp_def] using distinct

/-- Values that differ only in the order of entries have the same ordered form if keys differ in their
texts. -/
theorem Reordered.ordered_eq_of_keysDiffer {v w : Value} (same : Reordered v w)
    (differ : v.KeysDiffer asText) : v.ordered = w.ordered := by
  induction same with
  | refl v => rfl
  | symm previous ih => exact (ih (previous.keysDiffer_iff.mpr differ)).symm
  | trans first _ ihFirst ihSecond =>
    exact (ihFirst differ).trans (ihSecond (first.keysDiffer_iff.mp differ))
  | entries perm =>
    have texts := (Value.keysDiffer_iff.mp differ).1
    rw [keys, List.map_map] at texts
    exact ordered_map_eq_of_perm perm texts
  | @entry before after key item other _ ih =>
    have part := (Value.keysDiffer_iff.mp differ).2 item (by simp [parts])
    simp only [ordered_map, List.map_append, List.map_cons, ih part]
  | @listItem before after item other _ ih =>
    have part := (Value.keysDiffer_iff.mp differ).2 item (by simp [parts])
    simp only [ordered, orderedItems_eq_map, List.map_append, List.map_cons, ih part]
  | @tupleItem before after item other _ ih =>
    have part := (Value.keysDiffer_iff.mp differ).2 item (by simp [parts])
    simp only [ordered, orderedItems_eq_map, List.map_append, List.map_cons, ih part]

theorem isJson_of_mem_parts {v part : Value} (json : v.isJson) (member : part ∈ v.parts) : part.isJson := by
  cases v with
  | list items => exact (isJson_list items).mp json part member
  | map entries =>
    obtain ⟨entry, among, rfl⟩ := List.mem_map.mp member
    exact (((isJson_map entries).mp json).2 entry among).2
  | tuple items => simp [isJson] at json
  | _ => cases member

/-- The keys of objects differ in their texts. -/
theorem keysDiffer_of_isJson {v : Value} (json : v.isJson) : v.KeysDiffer asText := by
  induction v using induction_parts with
  | step v ih =>
    refine Value.keysDiffer_iff.mpr ⟨?_, fun part member => ih part member (isJson_of_mem_parts json member)⟩
    cases v with
    | map entries =>
      rw [keys, List.map_map]
      exact ((isJson_map entries).mp json).1
    | _ => exact List.nodup_nil

/-- Values of documents that differ only in the order of entries have the same ordered form. -/
theorem Reordered.ordered_eq {v w : Value} (same : Reordered v w) (json : v.isJson) :
    v.ordered = w.ordered :=
  same.ordered_eq_of_keysDiffer (keysDiffer_of_isJson json)

end GraphQuery.Value
