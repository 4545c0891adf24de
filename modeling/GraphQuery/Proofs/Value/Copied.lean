import GraphQuery.Proofs.Value.Tagged
import GraphQuery.Value.Copy

/-! # What copies share with their originals

A copy is equal to its original up to the order in which sets list their items. This order shows
neither in the tagged form, where the members of a set are sorted, nor in whether integers can be
written, and copying goes well with ordering the keys of maps. A value whose sets have at most one item
each is copied as it is.
-/

namespace GraphQuery

namespace Value

/-- Equality up to the order in which sets list their items. -/
inductive SetwiseEqual : Value → Value → Prop where
  | refl (v : Value) : SetwiseEqual v v
  | symm {v w : Value} : SetwiseEqual v w → SetwiseEqual w v
  | trans {u v w : Value} : SetwiseEqual u v → SetwiseEqual v w → SetwiseEqual u w
  | members (frozen : Bool) {items others : List Value} :
    items.Perm others → SetwiseEqual (.set frozen items) (.set frozen others)
  | member (frozen : Bool) (before after : List Value) {item other : Value} : SetwiseEqual item other →
    SetwiseEqual (.set frozen (before ++ item :: after)) (.set frozen (before ++ other :: after))
  | listItem (before after : List Value) {item other : Value} : SetwiseEqual item other →
    SetwiseEqual (.list (before ++ item :: after)) (.list (before ++ other :: after))
  | tupleItem (before after : List Value) {item other : Value} : SetwiseEqual item other →
    SetwiseEqual (.tuple (before ++ item :: after)) (.tuple (before ++ other :: after))
  | entry (before after : List (Value × Value)) {key otherKey item other : Value} :
    SetwiseEqual key otherKey → SetwiseEqual item other →
      SetwiseEqual (.map (before ++ (key, item) :: after)) (.map (before ++ (otherKey, other) :: after))

/-! ## Copies are equal up to the order of sets -/

namespace SetwiseEqual

variable {f : Value → Value} {items : List Value}

theorem list_map (related : ∀ item ∈ items, SetwiseEqual (f item) item) :
    SetwiseEqual (.list (items.map f)) (.list items) :=
  exchange_map .list refl (fun _ _ _ => trans) (fun before after _ _ => listItem before after) related

theorem tuple_map (related : ∀ item ∈ items, SetwiseEqual (f item) item) :
    SetwiseEqual (.tuple (items.map f)) (.tuple items) :=
  exchange_map .tuple refl (fun _ _ _ => trans) (fun before after _ _ => tupleItem before after) related

theorem set_map (frozen : Bool) (related : ∀ item ∈ items, SetwiseEqual (f item) item) :
    SetwiseEqual (.set frozen (items.map f)) (.set frozen items) :=
  exchange_map (.set frozen) refl (fun _ _ _ => trans) (fun before after _ _ => member frozen before after) related

theorem map_map {g : Value × Value → Value × Value} {entries : List (Value × Value)}
    (related : ∀ entry ∈ entries, SetwiseEqual (g entry).1 entry.1 ∧ SetwiseEqual (g entry).2 entry.2) :
    SetwiseEqual (.map (entries.map g)) (.map entries) :=
  exchange_map (r := fun entry other => SetwiseEqual entry.1 other.1 ∧ SetwiseEqual entry.2 other.2) .map refl
    (fun _ _ _ => trans) (fun before after _ _ both => entry before after both.1 both.2) related

end SetwiseEqual

section Copies

variable (copying : Copying)

mutual

/-- A copy is equal to its original up to the order in which sets list their items. -/
theorem setwiseEqual_copied : (v : Value) → SetwiseEqual (v.copied copying.arrange) v
  | .list items => by
    rw [copied, copiedItems_eq_map]
    exact .list_map (setwiseEqual_copied_items items)
  | .tuple items => by
    rw [copied, copiedItems_eq_map]
    exact .tuple_map (setwiseEqual_copied_items items)
  | .set frozen items => by
    rw [copied, copiedItems_eq_map]
    exact (SetwiseEqual.members frozen (copying.arrange_perm _)).trans
      (.set_map frozen (setwiseEqual_copied_items items))
  | .map entries => by
    rw [copied, copiedEntries_eq_map]
    exact .map_map (setwiseEqual_copied_entries entries)
  | .null | .bool _ | .int _ | .float _ | .text _ | .external _ _ | .entity _ | .record _ => .refl _

private theorem setwiseEqual_copied_items :
    (items : List Value) → ∀ item ∈ items, SetwiseEqual (item.copied copying.arrange) item
  | [] => List.forall_mem_nil _
  | item :: rest => List.forall_mem_cons.mpr ⟨setwiseEqual_copied item, setwiseEqual_copied_items rest⟩

private theorem setwiseEqual_copied_entries : (entries : List (Value × Value)) →
    ∀ entry ∈ entries, SetwiseEqual (entry.1.copied copying.arrange) entry.1 ∧
      SetwiseEqual (entry.2.copied copying.arrange) entry.2
  | [] => List.forall_mem_nil _
  | (key, item) :: rest => List.forall_mem_cons.mpr
    ⟨⟨setwiseEqual_copied key, setwiseEqual_copied item⟩, setwiseEqual_copied_entries rest⟩

end

/-- A literal that is made anew is equal to the literal up to the order in which sets list their items. -/
theorem setwiseEqual_copiedLiteral (v : Value) : SetwiseEqual (v.copiedLiteral copying.arrange) v := by
  induction v using induction_parts with
  | step v ih =>
    cases v with
    | list items =>
      rw [copiedLiteral, copiedLiterals_eq_map]
      exact .list_map ih
    | tuple items =>
      rw [copiedLiteral, copiedLiterals_eq_map]
      exact .tuple_map ih
    | map entries =>
      rw [copiedLiteral, copiedLiteralEntries_eq_map]
      exact .map_map fun entry member => ⟨.refl _, ih entry.2 (List.mem_map_of_mem member)⟩
    | _ => exact setwiseEqual_copied copying _

end Copies

/-! ## What the order of sets does not show in -/

private theorem map_sorted_sortByText (documents others : List Json)
    (perm : (documents.map Json.sorted).Perm (others.map Json.sorted)) :
    (sortByText Json.canonicalText documents).map Json.sorted =
      (sortByText Json.canonicalText others).map Json.sorted := by
  have sorts (documents : List Json) : (sortByText Json.canonicalText documents).map Json.sorted =
      sortByKey (Json.write .compact) (documents.map Json.sorted) := by
    rw [sortByKey_map, sortByText_eq_sortByKey]
    rfl
  rw [sorts, sorts]
  exact sortByKey_eq_of_perm (fun _ _ _ _ same => Json.write_compact_injective same) perm

theorem eq_text_of_sorted_eq {d : Json} {s : String} (same : d.sorted = .text s) : d = .text s := by
  cases d <;> simp_all [Json.sorted]

private theorem fieldsOf?_congr {pairs others : List (Json × Json)}
    (same : List.Forall₂ (fun a b => a.1.sorted = b.1.sorted ∧ a.2.sorted = b.2.sorted) pairs others) :
    (fieldsOf? pairs).map Json.sortedFields = (fieldsOf? others).map Json.sortedFields := by
  induction same with
  | nil => rfl
  | @cons pair other _ _ first _ ih =>
    obtain ⟨key, item⟩ := pair
    obtain ⟨otherKey, otherItem⟩ := other
    obtain ⟨keys, items⟩ := first
    by_cases isText : ∃ s, key = .text s
    · obtain ⟨s, rfl⟩ := isText
      obtain rfl := eq_text_of_sorted_eq keys.symm
      have fields (item : Json) (rest : Option (List (String × Json))) :
          (rest.map ((s, item) :: ·)).map Json.sortedFields =
            (rest.map Json.sortedFields).map ((s, item.sorted) :: ·) := by
        cases rest <;> rfl
      rw [fieldsOf?, fieldsOf?, fields, fields, ih, items]
    · have notText : ∀ s, otherKey ≠ .text s := by
        rintro s rfl
        exact isText ⟨s, eq_text_of_sorted_eq keys⟩
      have none {key item : Json} {rest : List (Json × Json)} (notText : ∀ s, key ≠ .text s) :
          fieldsOf? ((key, item) :: rest) = none := by
        cases key <;> first | rfl | exact absurd rfl (notText _)
      rw [none fun s is => isText ⟨s, is⟩, none notText]

/-- The document of entries depends on the sorted forms of what it is made of. -/
theorem sorted_ofTaggedEntries_congr (typeName : String) {pairs others : List (Json × Json)}
    (same : List.Forall₂ (fun a b => a.1.sorted = b.1.sorted ∧ a.2.sorted = b.2.sorted) pairs others) :
    (ofTaggedEntries typeName pairs).sorted = (ofTaggedEntries typeName others).sorted := by
  have fields := fieldsOf?_congr same
  have lists : (pairs.map fun pair => (Json.array [pair.1, pair.2]).sorted) =
      others.map fun pair => (Json.array [pair.1, pair.2]).sorted := by
    rw [map_eq_map_iff_forall₂]
    refine same.imp fun _ _ both => ?_
    simp only [Json.sorted, Json.sortedItems, both.1, both.2]
  unfold ofTaggedEntries
  cases first : fieldsOf? pairs with
  | some fieldsOfPairs =>
    cases second : fieldsOf? others with
    | some fieldsOfOthers =>
      rw [first, second, Option.map_some, Option.map_some, Option.some.injEq] at fields
      simp only [Json.sorted_object, fields]
    | none => simp [first, second] at fields
  | none =>
    cases second : fieldsOf? others with
    | some fieldsOfOthers => simp [first, second] at fields
    | none =>
      have sorts := map_sorted_sortByText (pairs.map fun pair => Json.array [pair.1, pair.2])
        (others.map fun pair => Json.array [pair.1, pair.2])
        (by rw [List.map_map, List.map_map]; exact .of_eq lists)
      simp only [sorted_tag, Json.sorted, Json.sortedItems_eq_map, sorts]

namespace SetwiseEqual

variable {v w : Value}

theorem sorted_tagged_set (frozen : Bool) {items others : List Value}
    (perm : (items.map fun item => item.tagged.sorted).Perm (others.map fun item => item.tagged.sorted)) :
    (tagged (.set frozen items)).sorted = (tagged (.set frozen others)).sorted := by
  have sorts := map_sorted_sortByText (taggedItems items) (taggedItems others)
    (by simpa only [taggedItems_eq_map, List.map_map, Function.comp_def] using perm)
  simp only [tagged, sorted_tag, Json.sorted, Json.sortedItems_eq_map, sorts]

/-- The tagged form does not show the order in which sets list their items. -/
theorem sorted_tagged_eq (same : SetwiseEqual v w) : v.tagged.sorted = w.tagged.sorted := by
  induction same with
  | refl v => rfl
  | symm _ ih => exact ih.symm
  | trans _ _ first second => exact first.trans second
  | members frozen perm => exact sorted_tagged_set frozen (perm.map _)
  | member frozen before after _ ih =>
    apply sorted_tagged_set
    rw [List.map_append, List.map_append, List.map_cons, List.map_cons, ih]
  | listItem before after _ ih =>
    simp only [tagged, taggedItems_eq_map, Json.sorted, Json.sortedItems_eq_map, List.map_append,
      List.map_cons, ih]
  | tupleItem before after _ ih =>
    simp only [tagged, sorted_tag, taggedItems_eq_map, Json.sorted, Json.sortedItems_eq_map,
      List.map_append, List.map_cons, ih]
  | entry before after _ _ ihKey ihItem =>
    apply sorted_ofTaggedEntries_congr
    simp only [taggedEntries_eq_map, List.map_append, List.map_cons]
    exact List.rel_append (List.forall₂_same.mpr fun _ _ => ⟨rfl, rfl⟩)
      (.cons ⟨ihKey, ihItem⟩ (List.forall₂_same.mpr fun _ _ => ⟨rfl, rfl⟩))

/-- Whether every integer can be written does not depend on the order in which sets list their items. -/
theorem isWritable_eq (same : SetwiseEqual v w) : v.isWritable = w.isWritable := by
  induction same with
  | refl v => rfl
  | symm _ ih => exact ih.symm
  | trans _ _ first second => exact first.trans second
  | members frozen perm => rw [isWritable_set, isWritable_set, perm.all_eq]
  | member frozen before after _ ih => simp only [isWritable_set, List.all_append, List.all_cons, ih]
  | listItem before after _ ih => simp only [isWritable_list, List.all_append, List.all_cons, ih]
  | tupleItem before after _ ih => simp only [isWritable_tuple, List.all_append, List.all_cons, ih]
  | entry before after _ _ ihKey ihItem =>
    simp only [isWritable_map, List.all_append, List.all_cons, ihKey, ihItem]

end SetwiseEqual

/-! ## Copies and the order of keys -/

/-- A literal that is made anew has its keys in order if the literal has. -/
theorem ordered_copiedLiteral (arrange : List Value → List Value) (v : Value) :
    (v.copiedLiteral arrange).ordered = v.ordered.copiedLiteral arrange := by
  induction v using induction_parts with
  | step v ih =>
    cases v with
    | list items =>
      simp only [copiedLiteral, ordered, copiedLiterals_eq_map, orderedItems_eq_map, List.map_map]
      exact congrArg list (List.map_congr_left ih)
    | tuple items =>
      simp only [copiedLiteral, ordered, copiedLiterals_eq_map, orderedItems_eq_map, List.map_map]
      exact congrArg tuple (List.map_congr_left ih)
    | map entries =>
      have items : ∀ entry ∈ entries, (entry.1, (entry.2.copiedLiteral arrange).ordered) =
          (entry.1, entry.2.ordered.copiedLiteral arrange) := by
        intro entry member
        rw [ih entry.2 (List.mem_map_of_mem member)]
      simp only [copiedLiteral, copiedLiteralEntries_eq_map, ordered_map, List.map_map, Function.comp_def,
        List.map_congr_left items, sortByKey_map]
    | _ => rfl

/-- What a literal that is made anew leads to are copies. -/
theorem leaves_copiedLiteral (arrange : List Value → List Value) (v : Value) :
    (v.copiedLiteral arrange).leaves = v.leaves.map (copied arrange) := by
  induction v using induction_parts with
  | step v ih =>
    cases v with
    | list items =>
      simp only [copiedLiteral, leaves, copiedLiterals_eq_map, leavesOfItems_eq_flatMap, List.flatMap_map,
        List.map_flatMap]
      exact List.flatMap_congr ih
    | tuple items =>
      simp only [copiedLiteral, leaves, copiedLiterals_eq_map, leavesOfItems_eq_flatMap, List.flatMap_map,
        List.map_flatMap]
      exact List.flatMap_congr ih
    | map entries =>
      simp only [copiedLiteral, leaves, copiedLiteralEntries_eq_map, leavesOfEntries_eq_flatMap,
        List.flatMap_map, List.map_flatMap]
      exact List.flatMap_congr fun entry member => ih entry.2 (List.mem_map_of_mem member)
    | _ => rfl

/-! ## Values that are copied as they are -/

/-- Whether every set in a value has at most one item. -/
def hasSmallSets (v : Value) : Bool :=
  v.throughout fun part => match part with
    | .set _ items => items.length ≤ 1
    | _ => true

theorem hasSmallSets_list {items : List Value} :
    hasSmallSets (.list items) = true ↔ ∀ item ∈ items, item.hasSmallSets = true := by
  simp [hasSmallSets, throughout, itemsThroughout_eq_all]

theorem hasSmallSets_tuple {items : List Value} :
    hasSmallSets (.tuple items) = true ↔ ∀ item ∈ items, item.hasSmallSets = true := by
  simp [hasSmallSets, throughout, itemsThroughout_eq_all]

theorem hasSmallSets_set {frozen : Bool} {items : List Value} :
    hasSmallSets (.set frozen items) = true ↔
      items.length ≤ 1 ∧ ∀ item ∈ items, item.hasSmallSets = true := by
  simp [hasSmallSets, throughout, itemsThroughout_eq_all]

theorem hasSmallSets_map {entries : List (Value × Value)} :
    hasSmallSets (.map entries) = true ↔
      ∀ entry ∈ entries, entry.1.hasSmallSets = true ∧ entry.2.hasSmallSets = true := by
  simp [hasSmallSets, throughout, entriesThroughout_eq_all]

section Small

variable (copying : Copying)

private theorem arrange_eq_self {items : List Value} (small : items.length ≤ 1) :
    copying.arrange items = items := by
  match items, small with
  | [], _ => exact (copying.arrange_perm []).eq_nil
  | [item], _ => exact List.perm_singleton.mp (copying.arrange_perm [item])

mutual

/-- A value whose sets have at most one item each is its own copy. -/
theorem copied_eq_self : (v : Value) → v.hasSmallSets = true → v.copied copying.arrange = v
  | .list items, small => by
    rw [copied, copiedItems_eq_map, copied_items_eq_self items (hasSmallSets_list.mp small)]
  | .tuple items, small => by
    rw [copied, copiedItems_eq_map, copied_items_eq_self items (hasSmallSets_tuple.mp small)]
  | .set frozen items, small => by
    obtain ⟨few, small⟩ := hasSmallSets_set.mp small
    rw [copied, copiedItems_eq_map, copied_items_eq_self items small, arrange_eq_self copying few]
  | .map entries, small => by
    rw [copied, copiedEntries_eq_map, copied_entries_eq_self entries (hasSmallSets_map.mp small)]
  | .null, _ | .bool _, _ | .int _, _ | .float _, _ | .text _, _ | .external _ _, _ | .entity _, _
  | .record _, _ => rfl

private theorem copied_items_eq_self : (items : List Value) →
    (∀ item ∈ items, item.hasSmallSets = true) → items.map (copied copying.arrange) = items
  | [], _ => rfl
  | item :: rest, small => by
    obtain ⟨first, others⟩ := List.forall_mem_cons.mp small
    rw [List.map_cons, copied_eq_self item first, copied_items_eq_self rest others]

private theorem copied_entries_eq_self : (entries : List (Value × Value)) →
    (∀ entry ∈ entries, entry.1.hasSmallSets = true ∧ entry.2.hasSmallSets = true) →
    (entries.map fun entry => (entry.1.copied copying.arrange, entry.2.copied copying.arrange)) = entries
  | [], _ => rfl
  | (key, item) :: rest, small => by
    obtain ⟨⟨ofKey, ofItem⟩, others⟩ := List.forall_mem_cons.mp small
    rw [List.map_cons, copied_eq_self key ofKey, copied_eq_self item ofItem,
      copied_entries_eq_self rest others]

end

/-- A literal whose sets have at most one item each is made anew as it is. -/
theorem copiedLiteral_eq_self {v : Value} (small : v.hasSmallSets = true) :
    v.copiedLiteral copying.arrange = v := by
  induction v using induction_parts with
  | step v ih =>
    cases v with
    | list items =>
      have kept : ∀ item ∈ items, item.copiedLiteral copying.arrange = item := fun item member =>
        ih item member (hasSmallSets_list.mp small item member)
      rw [copiedLiteral, copiedLiterals_eq_map, List.map_congr_left kept, List.map_id']
    | tuple items =>
      have kept : ∀ item ∈ items, item.copiedLiteral copying.arrange = item := fun item member =>
        ih item member (hasSmallSets_tuple.mp small item member)
      rw [copiedLiteral, copiedLiterals_eq_map, List.map_congr_left kept, List.map_id']
    | map entries =>
      have kept : ∀ entry ∈ entries, (entry.1, entry.2.copiedLiteral copying.arrange) = entry := by
        intro entry member
        rw [ih entry.2 (List.mem_map_of_mem member) (hasSmallSets_map.mp small entry member).2]
      rw [copiedLiteral, copiedLiteralEntries_eq_map, List.map_congr_left kept, List.map_id']
    | _ => exact copied_eq_self copying _ small

end Small

/-- Documents express no sets. -/
theorem hasSmallSets_of_isJson {v : Value} (json : v.isJson) : v.hasSmallSets = true := by
  induction v using induction_parts with
  | step v ih =>
    cases v with
    | list items =>
      exact hasSmallSets_list.mpr fun item member => ih item member ((isJson_list items).mp json item member)
    | map entries =>
      refine hasSmallSets_map.mpr fun entry member => ?_
      obtain ⟨isText, item⟩ := ((isJson_map entries).mp json).2 entry member
      refine ⟨?_, ih entry.2 (List.mem_map_of_mem member) item⟩
      rw [← text_asText isText]
      rfl
    | tuple | set | external | entity | record => simp [isJson] at json
    | _ => rfl

end Value

end GraphQuery
