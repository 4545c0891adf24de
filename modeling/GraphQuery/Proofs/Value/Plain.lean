import GraphQuery.Proofs.Assoc
import GraphQuery.Proofs.Value.Reordering
import GraphQuery.Value.Plain
import Mathlib.Algebra.Order.BigOperators.Group.List

/-! # Plain forms

The plain form of a value is one that documents can express if nothing foreign stands in the value: no
date, time or decimal, no entity and no record. It has as many entries as the value exactly if the keys
of every map differ in their texts, at any depth; otherwise it has fewer.
-/

namespace GraphQuery.Value

/-- The items of a map, a list, a tuple or a set; no other value has members. -/
def members : Value → List Value
  | .set _ items => items
  | v => v.parts

/-- Whether a value is another one or stands in it, at any depth. Keys are not reached. -/
inductive Within : Value → Value → Prop where
  | self (v : Value) : Within v v
  | member {part item v : Value} : item ∈ v.members → Within part item → Within part v

/-- Whether no document can express a value although it is no collection. -/
def isForeign : Value → Bool
  | .external _ _ | .entity _ | .record _ => true
  | _ => false

/-- Whether the keys of a map differ in their texts. -/
def HasDistinctTexts (v : Value) : Prop :=
  (v.keys.map asText).Nodup

mutual

/-- How many entries the maps in a value have, at any depth. -/
def entryCount : Value → ℕ
  | .map entries => entriesCount entries
  | .list items => itemsCount items
  | .tuple items => itemsCount items
  | .set _ items => itemsCount items
  | _ => 0

/-- How many entries the maps in several values have. -/
def itemsCount : List Value → ℕ
  | [] => 0
  | item :: rest => entryCount item + itemsCount rest

/-- How many entries there are, with those of the maps in their items. -/
def entriesCount : List (Value × Value) → ℕ
  | [] => 0
  | (_, item) :: rest => 1 + entryCount item + entriesCount rest

end

section Members

theorem members_map (entries : List (Value × Value)) : (map entries).members = entries.map Prod.snd :=
  rfl

theorem sizeOf_lt_of_mem_members {v item : Value} (member : item ∈ v.members) : sizeOf item < sizeOf v := by
  cases v with
  | set frozen items =>
    have smaller : sizeOf item < sizeOf items := List.sizeOf_lt_of_mem member
    simp only [Value.set.sizeOf_spec]
    omega
  | _ => exact sizeOf_lt_of_mem_parts member

/-- What holds of a value if it holds of its members holds of every value. -/
theorem induction_members {P : Value → Prop} (step : ∀ v, (∀ item ∈ v.members, P item) → P v) (v : Value) : P v :=
  step v fun item _ => induction_members step item
termination_by sizeOf v
decreasing_by exact sizeOf_lt_of_mem_members ‹_›

/-- What holds of everything in a value holds of it and of everything in its members. -/
theorem forall_within_iff {P : Value → Prop} {v : Value} :
    (∀ part, part.Within v → P part) ↔ P v ∧ ∀ item ∈ v.members, ∀ part, part.Within item → P part := by
  constructor
  · exact fun all => ⟨all v (.self v), fun item member part within => all part (.member member within)⟩
  · rintro ⟨whole, inside⟩ part within
    cases within with
    | self => exact whole
    | member among within => exact inside _ among part within

theorem itemsCount_eq (items : List Value) : itemsCount items = (items.map entryCount).sum := by
  induction items with
  | nil => rfl
  | cons item rest ih => rw [itemsCount, ih, List.map_cons, List.sum_cons]

theorem entriesCount_eq (entries : List (Value × Value)) :
    entriesCount entries = (entries.map fun entry => 1 + entry.2.entryCount).sum := by
  induction entries with
  | nil => rfl
  | cons entry rest ih => rw [entriesCount, ih, List.map_cons, List.sum_cons]

theorem entryCount_object (fields : List (String × Value)) :
    (object fields).entryCount = (fields.map fun field => 1 + field.2.entryCount).sum := by
  rw [object, entryCount, entriesCount_eq, List.map_map]
  rfl

theorem plainItems_eq (items : List Value) : plainItems items = items.map plain := by
  induction items with
  | nil => rfl
  | cons item rest ih => rw [plainItems, ih, List.map_cons]

theorem plainEntries_eq (entries : List (Value × Value)) :
    plainEntries entries = entries.map fun entry => (entry.1.asText, entry.2.plain) := by
  induction entries with
  | nil => rfl
  | cons entry rest ih => rw [plainEntries, ih, List.map_cons]

theorem map_fst_plainEntries (entries : List (Value × Value)) :
    (plainEntries entries).map Prod.fst = (map entries).keys.map asText := by
  rw [plainEntries_eq, keys, List.map_map, List.map_map]
  rfl

end Members

/-! ## Entries -/

section Counts

/-- Sums whose terms do not exceed those of another sum are equal exactly if all terms are. -/
theorem sum_le_sum_and_eq_iff {Item : Type} {f g : Item → ℕ} {Kept : Item → Prop} {items : List Item}
    (each : ∀ item ∈ items, f item ≤ g item ∧ (f item = g item ↔ Kept item)) :
    (items.map f).sum ≤ (items.map g).sum ∧
      ((items.map f).sum = (items.map g).sum ↔ ∀ item ∈ items, Kept item) := by
  have le : ∀ item ∈ items, f item ≤ g item := fun item member => (each item member).1
  refine ⟨List.sum_le_sum le, fun same item member => ?_, fun kept => ?_⟩
  · rw [← (each item member).2]
    by_contra differ
    have less := List.sum_lt_sum f g le ⟨item, member, lt_of_le_of_ne (le item member) differ⟩
    exact less.ne same
  · exact congrArg List.sum (List.map_congr_left fun item member => (each item member).2.mpr (kept item member))

theorem sum_succ_le_sum_and_eq_iff {Item : Type} {f g : Item → ℕ} {Kept : Item → Prop} {items : List Item}
    (each : ∀ item ∈ items, f item ≤ g item ∧ (f item = g item ↔ Kept item)) :
    (items.map fun item => 1 + f item).sum ≤ (items.map fun item => 1 + g item).sum ∧
      ((items.map fun item => 1 + f item).sum = (items.map fun item => 1 + g item).sum ↔
        ∀ item ∈ items, Kept item) :=
  sum_le_sum_and_eq_iff fun item member =>
    ⟨Nat.add_le_add_left (each item member).1 1, Nat.add_left_cancel_iff.trans (each item member).2⟩

theorem itemsCount_plain (items : List Value) :
    itemsCount (plainItems items) = (items.map fun item => item.plain.entryCount).sum := by
  rw [itemsCount_eq, plainItems_eq, List.map_map]
  rfl

theorem itemsCount_perm {items others : List Value} (perm : items.Perm others) :
    itemsCount items = itemsCount others := by
  rw [itemsCount_eq, itemsCount_eq, (perm.map _).sum_eq]

/-- A plain map has all entries of the map exactly if its keys differ in their texts. -/
theorem entryCount_plain_map (entries : List (Value × Value)) :
    (map entries).plain.entryCount ≤ (entries.map fun entry => 1 + entry.2.plain.entryCount).sum ∧
      ((map entries).plain.entryCount = (entries.map fun entry => 1 + entry.2.plain.entryCount).sum ↔
        (map entries).HasDistinctTexts) := by
  have written : ((plainEntries entries).map fun field => 1 + field.2.entryCount).sum =
      (entries.map fun entry => 1 + entry.2.plain.entryCount).sum := by
    rw [plainEntries_eq, List.map_map]
    rfl
  rw [plain, entryCount_object, ← written, HasDistinctTexts, ← map_fst_plainEntries]
  by_cases distinct : ((plainEntries entries).map Prod.fst).Nodup
  · rw [Assoc.ofPairs_eq_self distinct]
    exact ⟨le_rfl, iff_of_true rfl distinct⟩
  · have lost := Assoc.sum_ofPairs_lt (fun field => Nat.add_pos_left Nat.one_pos field.2.entryCount) distinct
    exact ⟨lost.le, iff_of_false lost.ne distinct⟩

/-- A plain form loses entries exactly if two keys of a map have the same text. -/
theorem entryCount_plain (v : Value) : v.plain.entryCount ≤ v.entryCount ∧
    (v.plain.entryCount = v.entryCount ↔ ∀ part : Value, part.Within v → part.HasDistinctTexts) := by
  induction v using induction_members with
  | step v ih =>
    rw [forall_within_iff]
    -- Only a map has keys, so for every other value it is enough to look at its members.
    have unkeyed (none : v.keys = []) : v.HasDistinctTexts := by
      rw [HasDistinctTexts, none]
      exact List.nodup_nil
    cases v with
    | map entries =>
      have items := sum_succ_le_sum_and_eq_iff fun (entry : Value × Value) (member : entry ∈ entries) =>
        ih entry.2 (List.mem_map.mpr ⟨entry, member, rfl⟩)
      have written := entryCount_plain_map entries
      rw [entryCount, entriesCount_eq, members_map, List.forall_mem_map, ← items.2, ← written.2]
      exact ⟨written.1.trans items.1, by omega⟩
    | list items | tuple items =>
      rw [plain, entryCount, entryCount, itemsCount_plain, itemsCount_eq, and_iff_right (unkeyed rfl)]
      exact sum_le_sum_and_eq_iff ih
    | set frozen items =>
      have sorted := sortByKey_perm display (plainItems items)
      rw [← sortByText_eq_sortByKey] at sorted
      rw [plain, entryCount, entryCount, itemsCount_perm sorted, itemsCount_plain, itemsCount_eq,
        and_iff_right (unkeyed rfl)]
      exact sum_le_sum_and_eq_iff ih
    | _ => exact ⟨le_rfl, iff_of_true rfl ⟨unkeyed rfl, List.forall_mem_nil _⟩⟩

end Counts

/-! ## Documents -/

section Documents

theorem isJson_object {fields : List (String × Value)} (distinct : (fields.map Prod.fst).Nodup) :
    (object fields).isJson = true ↔ ∀ field ∈ fields, field.2.isJson = true := by
  rw [object, isJson_map, List.forall_mem_map, List.map_map]
  exact (and_iff_right distinct).trans (forall₂_congr fun field _ => and_iff_right rfl)

/-- Where nothing foreign stands in a value, a document can express its plain form. -/
theorem isJson_plain {v : Value} (noneForeign : ∀ part : Value, part.Within v → part.isForeign = false) :
    v.plain.isJson = true := by
  induction v using induction_members with
  | step v ih =>
    obtain ⟨whole, inside⟩ := forall_within_iff.mp noneForeign
    have plainItem : ∀ item ∈ v.members, item.plain.isJson = true := fun item member =>
      ih item member (inside item member)
    cases v with
    | map entries =>
      have written : ∀ field ∈ plainEntries entries, field.2.isJson = true := by
        rw [plainEntries_eq, List.forall_mem_map]
        exact List.forall_mem_map.mp plainItem
      rw [plain, isJson_object (Assoc.nodup_ofPairs _)]
      exact @Assoc.forall_mem_ofPairs _ _ _ (fun item : Value => item.isJson = true) _ written
    | list items | tuple items =>
      rw [plain, isJson_list, plainItems_eq, List.forall_mem_map]
      exact plainItem
    | set frozen items =>
      rw [plain, isJson_list, sortByText_eq_sortByKey, plainItems_eq]
      intro item member
      obtain ⟨original, among, rfl⟩ := List.mem_map.mp ((sortByKey_perm _ _).mem_iff.mp member)
      exact plainItem original among
    | external | entity | record => cases whole
    | _ => rfl

/-- Where no entry is lost, nothing foreign stands in a value whose plain form a document can express. -/
theorem isForeign_eq_false_of_isJson_plain {v : Value}
    (distinct : ∀ part : Value, part.Within v → part.HasDistinctTexts) (json : v.plain.isJson = true) :
    ∀ part : Value, part.Within v → part.isForeign = false := by
  induction v using induction_members with
  | step v ih =>
    obtain ⟨wholeDistinct, insideDistinct⟩ := forall_within_iff.mp distinct
    suffices whole : v.isForeign = false ∧ ∀ item ∈ v.members, item.plain.isJson = true from
      forall_within_iff.mpr ⟨whole.1, fun item member =>
        ih item member (insideDistinct item member) (whole.2 item member)⟩
    cases v with
    | map entries =>
      rw [HasDistinctTexts, ← map_fst_plainEntries] at wholeDistinct
      rw [plain, Assoc.ofPairs_eq_self wholeDistinct, isJson_object wholeDistinct, plainEntries_eq,
        List.forall_mem_map] at json
      exact ⟨rfl, List.forall_mem_map.mpr json⟩
    | list items | tuple items =>
      rw [plain, isJson_list, plainItems_eq, List.forall_mem_map] at json
      exact ⟨rfl, json⟩
    | set frozen items =>
      rw [plain, isJson_list, sortByText_eq_sortByKey, plainItems_eq] at json
      refine ⟨rfl, fun item member => json _ ((sortByKey_perm _ _).mem_iff.mpr ?_)⟩
      exact List.mem_map.mpr ⟨item, member, rfl⟩
    | external | entity | record => cases json
    | _ => exact ⟨rfl, List.forall_mem_nil _⟩

end Documents

end GraphQuery.Value
