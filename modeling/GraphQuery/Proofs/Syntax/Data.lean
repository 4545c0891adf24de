import GraphQuery.Proofs.Syntax.Content
import GraphQuery.Proofs.Value.Plain
import GraphQuery.Syntax.Fault

/-! # The data of nodes

Data that is to be stored or sent has to be built from what documents can express. What the fields of a
node hold always is, and the plain form of what a caller wrote into a query is unless a date, a time or a
decimal stands in it. Keys become texts, and entries whose keys become the same text become one entry:
the data of a node has fewer entries than the node then.
-/

namespace GraphQuery

namespace Outline

mutual

/-- How many entries an outline has with its kinds, its fields and the maps in it, at any depth. -/
def entryCount : Outline → ℕ
  | .node _ fields => 1 + fieldsCount fields
  | .tuple items => itemsCount items
  | .properties entries => fieldsCount entries
  | .mapping entries => entriesCount entries
  | .parameters entries => Value.entriesCount entries
  | .data value => value.entryCount
  | .scalar value => value.entryCount

/-- How many fields there are, with the entries in them. -/
def fieldsCount : List (String × Outline) → ℕ
  | [] => 0
  | (_, item) :: rest => 1 + entryCount item + fieldsCount rest

/-- How many entries are in several outlines. -/
def itemsCount : List Outline → ℕ
  | [] => 0
  | item :: rest => entryCount item + itemsCount rest

/-- How many entries there are, with those in their items. -/
def entriesCount : List (Value × Outline) → ℕ
  | [] => 0
  | (_, item) :: rest => 1 + entryCount item + entriesCount rest

end

end Outline

namespace Tree

/-- Whether a value is data of the caller in a tree, at any depth. -/
inductive HasData : Tree → Value → Prop where
  | raw {t : Tree} {name : String} {v : Value} : (name, v) ∈ t.rawParts → HasData t v
  | part {t part : Tree} {name : String} {v : Value} : (name, part) ∈ t.parts → HasData part v → HasData t v
  | item {items : List Tree} {item : Tree} {v : Value} : item ∈ items → HasData item v → HasData (.tuple items) v
  | entry {entries : List (Value × Tree)} {key : Value} {item : Tree} {v : Value} :
    (key, item) ∈ entries → HasData item v → HasData (.mapping entries) v

/-- Whether a value stands in the data of the caller in a tree. -/
def Contains (t : Tree) (part : Value) : Prop :=
  ∃ v, t.HasData v ∧ part.Within v

/-- Whether every field at every depth has content of its type: a node, null, a flag, a number or a text, a row
of such contents, or such contents under distinct names. Nothing is said of the data of the caller. -/
inductive FieldsFit : Tree → Prop where
  | node {t : Tree} : t.kind?.isSome → (∀ part ∈ t.parts, FieldsFit part.2) → FieldsFit t
  | scalar {value : Value} : value.isAtom → FieldsFit (.scalar value)
  | tuple {items : List Tree} : (∀ item ∈ items, FieldsFit item) → FieldsFit (.tuple items)
  | mapping {entries : List (Value × Tree)} : (∀ entry ∈ entries, entry.1.text?.isSome) →
    (entries.map fun entry => entry.1.asText).Nodup → (∀ entry ∈ entries, FieldsFit entry.2) →
    FieldsFit (.mapping entries)

/-! ## What trees carry -/

section HasData

variable {P : Value → Prop}

theorem forall_hasData_node {t : Tree} (node : t.kind?.isSome = true) : (∀ v, t.HasData v → P v) ↔
    (∀ part ∈ t.parts, ∀ v, part.2.HasData v → P v) ∧ ∀ part ∈ t.rawParts, P part.2 := by
  constructor
  · exact fun all => ⟨fun part member v given => all v (.part member given),
      fun part member => all part.2 (.raw member)⟩
  · rintro ⟨inParts, raw⟩ v given
    cases given with
    | raw member => exact raw _ member
    | part member given => exact inParts _ member v given
    | item | entry => cases node

theorem forall_hasData_scalar (value : Value) : (∀ v, (scalar value).HasData v → P v) ↔ True := by
  refine iff_of_true (fun v given => ?_) trivial
  cases given with
  | raw member => cases member
  | part member => cases member

theorem forall_hasData_tuple (items : List Tree) : (∀ v, (tuple items).HasData v → P v) ↔
    ∀ item ∈ items, ∀ v, item.HasData v → P v := by
  constructor
  · exact fun all item member v given => all v (.item member given)
  · intro inItems v given
    cases given with
    | raw member => cases member
    | part member => cases member
    | item member given => exact inItems _ member v given

theorem forall_hasData_mapping (entries : List (Value × Tree)) : (∀ v, (mapping entries).HasData v → P v) ↔
    ∀ entry ∈ entries, ∀ v, entry.2.HasData v → P v := by
  constructor
  · exact fun all entry member v given => all v (.entry member given)
  · intro inEntries v given
    cases given with
    | raw member => cases member
    | part member => cases member
    | entry member given => exact inEntries _ member v given

end HasData

/-! ## Entries -/

theorem fieldsCount_eq (fields : List (String × Outline)) :
    Outline.fieldsCount fields = (fields.map fun field => 1 + field.2.entryCount).sum := by
  induction fields with
  | nil => rfl
  | cons field rest ih => rw [Outline.fieldsCount, ih, List.map_cons, List.sum_cons]

theorem itemsCount_eq (items : List Outline) : Outline.itemsCount items = (items.map Outline.entryCount).sum := by
  induction items with
  | nil => rfl
  | cons item rest ih => rw [Outline.itemsCount, ih, List.map_cons, List.sum_cons]

theorem entriesCount_eq (entries : List (Value × Outline)) :
    Outline.entriesCount entries = (entries.map fun entry => 1 + entry.2.entryCount).sum := by
  induction entries with
  | nil => rfl
  | cons entry rest ih => rw [Outline.entriesCount, ih, List.map_cons, List.sum_cons]

private theorem entryCount_ofProperties (properties : Option (List (String × Tree))) :
    (ofProperties properties).outline.entryCount = (outlineProperties properties).entryCount := by
  cases properties with
  | none => rfl
  | some entries =>
    simp only [ofProperties, outline, outlineProperties, Outline.entryCount, outlineEntries_eq_map,
      outlineFields_eq_map, fieldsCount_eq, entriesCount_eq, List.map_map, Function.comp_def]

/-- A node has an entry for its kind and one for each field. -/
theorem entryCount_outline {t : Tree} (node : t.kind?.isSome = true) : t.outline.entryCount =
    1 + ((t.parts.map fun part => 1 + part.2.outline.entryCount).sum +
      (t.rawParts.map fun part => 1 + part.2.entryCount).sum) := by
  cases t with
  | scalar | tuple | mapping => cases node
  | _ =>
    simp only [outline, Outline.entryCount, Outline.fieldsCount, parts, rawParts, List.map_cons, List.map_nil,
      List.sum_cons, List.sum_nil, entryCount_ofProperties, outlines_ofNames, outline_ofName?, ofName,
      Outline.name, Value.entryCount, add_zero, zero_add, add_assoc]

/-- The data of a tree has no more entries than the tree, and as many exactly if no plain form loses any. -/
theorem entryCount_toData (t : Tree) : t.outline.toData.entryCount ≤ t.outline.entryCount ∧
    (t.outline.toData.entryCount = t.outline.entryCount ↔
      ∀ v, t.HasData v → v.plain.entryCount = v.entryCount) := by
  induction t using induction_on_parts with
  | node t node ih =>
    obtain ⟨kind, named⟩ := Option.isSome_iff_exists.mp node
    have inParts := Value.sum_succ_le_sum_and_eq_iff ih
    have inRaw := Value.sum_succ_le_sum_and_eq_iff fun (part : String × Value) (_ : part ∈ t.rawParts) =>
      ⟨(Value.entryCount_plain part.2).1, Iff.rfl⟩
    have data : t.outline.toData.entryCount = 1 +
        ((t.parts.map fun part => 1 + part.2.outline.toData.entryCount).sum +
          (t.rawParts.map fun part => 1 + part.2.plain.entryCount).sum) := by
      simp only [toData_outline named, Value.entryCount_object, List.map_cons, List.map_append, List.map_map,
        List.sum_cons, List.sum_append, Value.entryCount, add_zero, Function.comp_def]
    rw [data, entryCount_outline node, forall_hasData_node node, ← inParts.2, ← inRaw.2]
    omega
  | scalar value => exact ⟨le_rfl, iff_of_true rfl ((forall_hasData_scalar value).mpr trivial)⟩
  | tuple items ih =>
    rw [forall_hasData_tuple, outline, Outline.toData, Value.entryCount, Outline.entryCount, Value.itemsCount_eq,
      itemsCount_eq, itemData_eq_map, outlines_eq_map, List.map_map, List.map_map, List.map_map]
    exact Value.sum_le_sum_and_eq_iff ih
  | mapping entries ih =>
    rw [forall_hasData_mapping, outline, Outline.toData, Value.entryCount, Outline.entryCount, Value.entriesCount_eq,
      entriesCount_eq, entryData_eq_map, outlineEntries_eq_map, List.map_map, List.map_map, List.map_map]
    exact Value.sum_succ_le_sum_and_eq_iff ih

/-! ## Documents -/

/-- Where the fields of a tree fit, a document can express its data exactly if it can express all plain forms. -/
theorem isJson_toData_iff {t : Tree} (fit : t.FieldsFit) :
    t.outline.toData.isJson = true ↔ ∀ v, t.HasData v → v.plain.isJson = true := by
  induction fit with
  | @node t node _ ih =>
    obtain ⟨kind, named⟩ := Option.isSome_iff_exists.mp node
    have distinct : ((("kind", Value.text kind) :: (t.parts.map (fun part => (part.1, part.2.outline.toData)) ++
        t.rawParts.map fun part => (part.1, part.2.plain))).map Prod.fst).Nodup := by
      simpa only [List.map_cons, List.map_append, List.map_map, Function.comp_def] using t.nodup_names
    rw [toData_outline named, Value.isJson_object distinct, forall_hasData_node node, List.forall_mem_cons,
      List.forall_mem_append, List.forall_mem_map, List.forall_mem_map, and_iff_right (by rfl)]
    exact and_congr (forall₂_congr ih) Iff.rfl
  | @scalar value atom =>
    rw [forall_hasData_scalar, iff_true, outline, Outline.toData]
    cases value <;> first | rfl | cases atom
  | @tuple items _ ih =>
    rw [forall_hasData_tuple, outline, Outline.toData, Value.isJson_list, itemData_eq_map, outlines_eq_map,
      List.forall_mem_map, List.forall_mem_map]
    exact forall₂_congr ih
  | @mapping entries texts distinct _ ih =>
    rw [forall_hasData_mapping, outline, Outline.toData, Value.isJson_map, entryData_eq_map, outlineEntries_eq_map,
      List.map_map, List.map_map, List.forall_mem_map, List.forall_mem_map, and_iff_right (by exact distinct)]
    exact forall₂_congr fun entry member => (and_iff_right (texts entry member)).trans (ih entry member)

theorem forall_contains_iff {P : Value → Prop} {t : Tree} :
    (∀ part, t.Contains part → P part) ↔ ∀ v, t.HasData v → ∀ part : Value, part.Within v → P part := by
  constructor
  · exact fun all v given part within => all part ⟨v, given, within⟩
  · rintro all part ⟨v, given, within⟩
    exact all v given part within

/-- The data of a node has all its entries exactly if the keys of every map that a caller wrote differ in their
texts. If nothing foreign stands in what the caller wrote, a document can express the data. Both hold together
exactly if neither foreign values nor keys with the same text occur. -/
theorem toData_isFaithful_iff {t : Tree} (node : t.kind?.isSome = true) (fit : t.FieldsFit) :
    ∃ data, t.toData = .ok data ∧
      (data.entryCount = t.outline.entryCount ↔ ∀ part, t.Contains part → part.HasDistinctTexts) ∧
      ((∀ part, t.Contains part → part.isForeign = false) → data.isJson = true) ∧
      (data.isJson = true ∧ data.entryCount = t.outline.entryCount ↔
        ∀ part, t.Contains part → part.isForeign = false ∧ part.HasDistinctTexts) ∧
      (data.isJson = true → ∃ document, Value.ofJson document = data) := by
  have count : t.outline.toData.entryCount = t.outline.entryCount ↔
      ∀ part, t.Contains part → part.HasDistinctTexts := by
    rw [(entryCount_toData t).2, forall_contains_iff]
    exact forall₂_congr fun v _ => (Value.entryCount_plain v).2
  have expressible (noneForeign : ∀ part, t.Contains part → part.isForeign = false) :
      t.outline.toData.isJson = true := by
    rw [forall_contains_iff] at noneForeign
    exact (isJson_toData_iff fit).mpr fun v given => Value.isJson_plain (noneForeign v given)
  refine ⟨t.outline.toData, by rw [toData, if_pos node], count, expressible, ⟨?_, ?_⟩, fun json => ?_⟩
  · rintro ⟨json, kept⟩
    have distinct := count.mp kept
    have noneForeign : ∀ part, t.Contains part → part.isForeign = false := by
      rw [forall_contains_iff] at distinct ⊢
      exact fun v given => Value.isForeign_eq_false_of_isJson_plain (distinct v given)
        ((isJson_toData_iff fit).mp json v given)
    exact fun part inside => ⟨noneForeign part inside, distinct part inside⟩
  · intro both
    exact ⟨expressible fun part inside => (both part inside).1, count.mpr fun part inside => (both part inside).2⟩
  · exact ⟨_, Value.ofJson_tagged _ json⟩

/-- An operand that is a map, with a number and null for keys and with a tuple and a set for items. -/
def mixedOperand : Tree :=
  .unary "NOT" (.literal (.map [(.int 1, .tuple [.bool true, .null]), (.null, .set false [.text "b", .text "a"])]))

/-- Nothing of the map is lost, and a document can express what becomes of it. -/
theorem toData_isFaithful_iff_mixed : ∃ data, mixedOperand.toData = .ok data ∧ data.isJson = true ∧
    data.entryCount = mixedOperand.outline.entryCount ∧
      ∀ part, mixedOperand.Contains part → part.isForeign = false ∧ part.HasDistinctTexts := by
  have fit : mixedOperand.FieldsFit :=
    .node rfl (List.forall_mem_cons.mpr ⟨.scalar rfl,
      List.forall_mem_singleton.mpr (.node rfl (List.forall_mem_nil _))⟩)
  obtain ⟨data, ran, -, -, faithful, -⟩ := toData_isFaithful_iff rfl fit
  have read : mixedOperand.outline.toData = data := Except.ok.inj ran
  have json : data.isJson = true := by
    rw [← read]
    decide +kernel
  have kept : data.entryCount = mixedOperand.outline.entryCount := by
    rw [← read]
    decide +kernel
  exact ⟨data, ran, json, kept, faithful.mp ⟨json, kept⟩⟩

/-- A date stays a date, which no document can express, and the keys `1` and `"1"` become one key. -/
theorem not_toData_isFaithful_date :
    (FieldsFit (.literal (.external .date "2024-01-02")) ∧
      ∃ data, (literal (.external .date "2024-01-02")).toData = .ok data ∧ data.isJson = false) ∧
    FieldsFit (.literal (.map [(.int 1, .text "a"), (.text "1", .text "b")])) ∧
      ∃ data, (literal (.map [(.int 1, .text "a"), (.text "1", .text "b")])).toData = .ok data ∧
        data.entryCount < (literal (.map [(.int 1, .text "a"), (.text "1", .text "b")])).outline.entryCount := by
  have fit (v : Value) : FieldsFit (.literal v) := .node rfl (List.forall_mem_nil _)
  exact ⟨⟨fit _, _, rfl, rfl⟩, fit _, _, rfl, by decide +kernel⟩

end Tree

end GraphQuery
