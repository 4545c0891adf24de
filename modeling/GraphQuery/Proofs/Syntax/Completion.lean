import GraphQuery.Proofs.Syntax.Origin

/-! # What reading a document keeps

A document that reads as a node and the data of the node agree on every field that the document gives,
at every depth, and the data add nothing but defaults, exactly if no object in the document has a field
that its kind does not have. A field of this kind is skipped without a fault.
-/

namespace GraphQuery

namespace Value

def kindOf? (entries : List (Value × Value)) : Option String :=
  (lookup "kind" entries).bind text?

mutual

/-- Whether stored data keep everything that a document holds. The object of a node may have further
fields, if they hold defaults of its kind, and data of the caller are left as they are. -/
def KeptIn : Value → Value → Prop
  | .map entries, stored => ∃ fields, stored = .map fields ∧
      EntriesKeptIn ((kindOf? entries).bind Tree.rawField) entries fields ∧
      ∀ field ∈ fields, field.1 ∈ entries.map Prod.fst ∨ ∃ kind name, kindOf? entries = some kind ∧
        field.1 = .text name ∧ (name, field.2) ∈ Tree.fieldDefaults kind
  | .list items, stored => ∃ others, stored = .list others ∧ ItemsKeptIn items others
  | value, stored => stored = value

/-- Whether stored lists keep everything that lists of a document hold. -/
def ItemsKeptIn : List Value → List Value → Prop
  | [], others => others = []
  | item :: rest, others => ∃ other remaining, others = other :: remaining ∧
      KeptIn item other ∧ ItemsKeptIn rest remaining

/-- Whether stored fields keep everything that the entries of a document hold. -/
def EntriesKeptIn (raw : Option String) : List (Value × Value) → List (Value × Value) → Prop
  | [], _ => True
  | (key, item) :: rest, fields => (∃ other, (key, other) ∈ fields ∧
      if raw.any (key.isText ·) then other = item else KeptIn item other) ∧ EntriesKeptIn raw rest fields

end

/-- Whether a node of a kind has a field with a name. -/
def isDeclared (kind : String) (key : Value) : Bool :=
  key.isText "kind" ||
    ((Tree.declaredFields.lookup kind).getD []).any fun field => key.isText field.1

mutual

/-- Whether no object that names its kind has a field that the kind does not have. -/
def isStrict : Value → Bool
  | .map entries =>
    entries.all (fun entry => (kindOf? entries).all fun kind => isDeclared kind entry.1) &&
      entriesAreStrict ((kindOf? entries).bind Tree.rawField) entries
  | .list items => itemsAreStrict items
  | _ => true

/-- Whether this holds of several values. -/
def itemsAreStrict : List Value → Bool
  | [] => true
  | item :: rest => isStrict item && itemsAreStrict rest

/-- Whether this holds of entries, apart from data of the caller. -/
def entriesAreStrict (raw : Option String) : List (Value × Value) → Bool
  | [] => true
  | (key, item) :: rest => (raw.any (key.isText ·) || isStrict item) && entriesAreStrict raw rest

end

theorem itemsAreStrict_eq_all (items : List Value) : itemsAreStrict items = items.all isStrict := by
  induction items with
  | nil => rfl
  | cons item rest ih => rw [itemsAreStrict, ih, List.all_cons]

theorem entriesAreStrict_eq_all (raw : Option String) (entries : List (Value × Value)) :
    entriesAreStrict raw entries =
      entries.all fun entry => raw.any (entry.1.isText ·) || isStrict entry.2 := by
  induction entries with
  | nil => rfl
  | cons entry rest ih => rw [entriesAreStrict, ih, List.all_cons]

theorem itemsKeptIn_iff {items others : List Value} :
    ItemsKeptIn items others ↔ List.Forall₂ KeptIn items others := by
  induction items generalizing others with
  | nil => simp [ItemsKeptIn]
  | cons item rest ih =>
    simp only [ItemsKeptIn, ih, List.forall₂_cons_left_iff]
    constructor
    · rintro ⟨other, remaining, same, first, others⟩
      exact ⟨other, remaining, first, others, same⟩
    · rintro ⟨other, remaining, first, others, same⟩
      exact ⟨other, remaining, same, first, others⟩

theorem entriesKeptIn_iff {raw : Option String} {entries fields : List (Value × Value)} :
    EntriesKeptIn raw entries fields ↔ ∀ entry ∈ entries, ∃ other, (entry.1, other) ∈ fields ∧
      if raw.any (entry.1.isText ·) then other = entry.2 else KeptIn entry.2 other := by
  induction entries with
  | nil => simp [EntriesKeptIn]
  | cons entry rest ih => rw [EntriesKeptIn, ih, List.forall_mem_cons]

theorem kindOf?_eq_some {entries : List (Value × Value)} {kind : String} :
    kindOf? entries = some kind ↔ lookup "kind" entries = some (.text kind) := by
  rw [kindOf?, Option.bind_eq_some_iff]
  constructor
  · rintro ⟨named, found, isText⟩
    cases named <;> simp_all [text?]
  · exact fun found => ⟨_, found, rfl⟩

/-- An entry of an object that a document can express is found under its name. -/
theorem lookup_of_mem_of_isJson {entries : List (Value × Value)} (json : isJson (.map entries) = true)
    {entry : Value × Value} (member : entry ∈ entries) :
    ∃ name, entry.1 = .text name ∧ lookup name entries = some entry.2 := by
  obtain ⟨distinct, all⟩ := (isJson_map entries).mp json
  have texts : entries.map (fun entry => (.text entry.1.asText, entry.2)) = entries := by
    conv_rhs => rw [← List.map_id entries]
    exact List.map_congr_left fun entry member => by rw [text_asText (all entry member).1, id]
  have named : ((entries.map fun entry => (entry.1.asText, entry.2)).map Prod.fst).Nodup := by
    simpa only [List.map_map, Function.comp_def] using distinct
  have found := lookup_of_mem named (List.mem_map.mpr ⟨entry, member, rfl⟩)
  refine ⟨entry.1.asText, (text_asText (all entry member).1).symm, ?_⟩
  rwa [List.map_map, Function.comp_def, texts] at found

end Value

namespace Tree

open Value

/-! ## Nodes -/

theorem declaredFields_lookup {t : Tree} {kind : String} (node : t.kind? = some kind) :
    ((declaredFields.lookup kind).getD []).map Prod.fst = t.parts.map Prod.fst ++ t.rawParts.map Prod.fst := by
  cases t <;> cases node <;> rfl

theorem isText_text {name s : String} : (text name).isText s = true ↔ name = s :=
  beq_iff_eq

/-- The fields that a kind has are the parts of its nodes and the data of the caller in them. -/
theorem isDeclared_iff {t : Tree} {kind name : String} (node : t.kind? = some kind) :
    isDeclared kind (.text name) = true ↔
      name = "kind" ∨ name ∈ t.parts.map Prod.fst ∨ name ∈ t.rawParts.map Prod.fst := by
  have declared : (((declaredFields.lookup kind).getD []).any fun field => (text name).isText field.1) = true ↔
      name ∈ ((declaredFields.lookup kind).getD []).map Prod.fst := by
    rw [List.any_eq_true, List.mem_map]
    exact exists_congr fun field => and_congr_right fun _ => isText_text.trans eq_comm
  rw [isDeclared, Bool.or_eq_true, declared, declaredFields_lookup node, List.mem_append, isText_text]

theorem rawField_iff {t : Tree} {kind name : String} (node : t.kind? = some kind) :
    rawField kind = some name ↔ name ∈ t.rawParts.map Prod.fst := by
  cases t <;> cases node <;> simp [rawField, rawParts, eq_comm]

theorem isJson_of_mem_fieldDefaults (kind : String) :
    ∀ field ∈ fieldDefaults kind, field.2.isJson = true := by
  unfold fieldDefaults
  split <;> simp [isJson, areJson, entriesAreJson]

section Node

variable {entries : List (Value × Value)} {kind : String} {t : Tree}
  (json : (Value.map entries).isJson = true) (named : lookup "kind" entries = some (.text kind))
  (origin : ObjectFields.IsOrigin ⟨kind, entries, ofFieldEntries entries⟩ t)

/-- The fields of the stored data of a node whose data of the caller are plain. -/
def storedFields (kind : String) (t : Tree) : List (String × Value) :=
  ("kind", .text kind) :: (t.parts.map (fun part => (part.1, part.2.outline.toData)) ++ t.rawParts)

include json origin in
theorem toData_of_isOrigin : t.outline.toData = Value.object (storedFields kind t) := by
  have plain : t.rawParts.map (fun part => (part.1, part.2.plain)) = t.rawParts := by
    conv_rhs => rw [← List.map_id t.rawParts]
    refine List.map_congr_left fun part member => ?_
    have partJson : part.2.isJson = true := by
      rcases origin.rawParts part member with found | ⟨-, isDefault⟩
      · exact (((isJson_map _).mp json).2 _ (exists_mem_of_lookup found)).2
      · exact isJson_of_mem_fieldDefaults _ part isDefault
    rw [plain_eq_self part.2 partJson, id]
  rw [toData_outline origin.kind, plain, storedFields]

/-- What stands under a name in the stored data. -/
theorem eq_of_mem_storedFields {name : String} {item other : Value}
    (member : (name, item) ∈ storedFields kind t) (otherMember : (name, other) ∈ storedFields kind t) :
    item = other := by
  have distinct : ((storedFields kind t).map Prod.fst).Nodup := by
    simpa only [storedFields, List.map_cons, List.map_append, List.map_map, Function.comp_def]
      using nodup_names t
  exact congrArg Prod.snd (List.inj_on_of_nodup_map distinct member otherMember rfl)

include named origin in
/-- A field of an object that reads as a node is its kind, reads as a part of the node, is data of the
caller in it, or is not a field of the kind. -/
theorem field_cases {name : String} {item : Value} (found : lookup name entries = some item) :
    (name = "kind" ∧ item = .text kind) ∨ (∃ part, (name, part) ∈ t.parts ∧ ofField item = .ok part) ∨
      (name, item) ∈ t.rawParts ∨ isDeclared kind (.text name) = false := by
  cases declared : isDeclared kind (.text name) with
  | false => exact .inr (.inr (.inr rfl))
  | true =>
    rcases (isDeclared_iff origin.kind).mp declared with rfl | isPart | isRaw
    · exact .inl ⟨rfl, Option.some.inj (found.symm.trans named)⟩
    · obtain ⟨⟨_, part⟩, member, rfl⟩ := List.mem_map.mp isPart
      rcases origin.parts _ member with stands | ⟨absent, -⟩
      · rw [find?_ofFieldEntries, found, Option.map_some] at stands
        exact .inr (.inl ⟨part, member, Option.some.inj stands⟩)
      · simp [find?_ofFieldEntries, found] at absent
    · obtain ⟨⟨_, value⟩, member, rfl⟩ := List.mem_map.mp isRaw
      rcases origin.rawParts _ member with stands | ⟨absent, -⟩
      · obtain rfl := Option.some.inj (found.symm.trans stands)
        exact .inr (.inr (.inl member))
      · cases found.symm.trans absent

theorem isDeclared_of_mem_storedFields (node : t.kind? = some kind) {name : String} {other : Value}
    (member : (name, other) ∈ storedFields kind t) : isDeclared kind (.text name) = true := by
  rw [isDeclared_iff node]
  have among : name ∈ (storedFields kind t).map Prod.fst := List.mem_map_of_mem member
  simpa only [storedFields, List.map_cons, List.map_append, List.map_map, Function.comp_def,
    List.mem_cons, List.mem_append] using among

theorem isRaw_iff (node : t.kind? = some kind) {name : String} :
    (rawField kind).any ((text name).isText ·) = true ↔ name ∈ t.rawParts.map Prod.fst := by
  rw [← rawField_iff node]
  cases rawField kind with
  | none => simp
  | some raw => rw [Option.any_some, isText_text, Option.some.injEq, eq_comm]

include named origin in
/-- A field of an object that reads as a node is kept exactly if its kind has it and what it holds is
strict or data of the caller. -/
theorem keptIn_field_iff {name : String} {item : Value} (found : lookup name entries = some item)
    (ih : ∀ part, ofField item = .ok part → (item.KeptIn part.outline.toData ↔ item.isStrict = true)) :
    (∃ other, (name, other) ∈ storedFields kind t ∧
      if (rawField kind).any ((text name).isText ·) then other = item else item.KeptIn other) ↔
        isDeclared kind (.text name) = true ∧
          ((rawField kind).any ((text name).isText ·) || item.isStrict) = true := by
  have distinct := nodup_names t
  rw [List.nodup_cons, List.mem_append, not_or] at distinct
  obtain ⟨⟨-, kindNotRaw⟩, distinct⟩ := distinct
  have node : t.kind? = some kind := origin.kind
  rcases field_cases named origin found with ⟨rfl, rfl⟩ | ⟨part, member, read⟩ | member | undeclared
  · have member : ("kind", text kind) ∈ storedFields kind t := List.mem_cons_self ..
    have notRaw : (rawField kind).any ((text "kind").isText ·) = false := by
      rwa [← Bool.not_eq_true, isRaw_iff node]
    simp only [notRaw, Bool.false_eq_true, if_false, isDeclared_of_mem_storedFields node member,
      Bool.false_or, true_and]
    exact ⟨fun _ => rfl, fun _ => ⟨_, member, rfl⟩⟩
  · have stored : (name, part.outline.toData) ∈ storedFields kind t :=
      List.mem_cons_of_mem _ (List.mem_append_left _ (List.mem_map.mpr ⟨_, member, rfl⟩))
    have notRaw : (rawField kind).any ((text name).isText ·) = false := by
      rw [← Bool.not_eq_true, isRaw_iff node]
      exact (List.disjoint_of_nodup_append distinct) (List.mem_map_of_mem member)
    simp only [notRaw, Bool.false_eq_true, if_false, isDeclared_of_mem_storedFields node stored,
      Bool.false_or, true_and, ← ih part read]
    constructor
    · rintro ⟨other, otherMember, kept⟩
      exact eq_of_mem_storedFields otherMember stored ▸ kept
    · exact fun kept => ⟨_, stored, kept⟩
  · have stored : (name, item) ∈ storedFields kind t :=
      List.mem_cons_of_mem _ (List.mem_append_right _ member)
    have isRaw : (rawField kind).any ((text name).isText ·) = true :=
      (isRaw_iff node).mpr (List.mem_map_of_mem member)
    simp only [isRaw, if_true, isDeclared_of_mem_storedFields node stored, Bool.true_or, and_self, iff_true]
    exact ⟨item, stored, rfl⟩
  · simp only [undeclared, Bool.false_eq_true, false_and, iff_false]
    rintro ⟨other, stored, -⟩
    rw [isDeclared_of_mem_storedFields node stored] at undeclared
    cases undeclared

include named origin in
/-- The stored data of a node add nothing but defaults. -/
theorem default_of_mem_storedFields {name : String} {other : Value}
    (member : (name, other) ∈ storedFields kind t) :
    (.text name) ∈ entries.map Prod.fst ∨ (name, other) ∈ fieldDefaults kind := by
  have given : ∀ {item}, lookup name entries = some item → text name ∈ entries.map Prod.fst :=
    fun found => List.mem_map_of_mem (exists_mem_of_lookup found)
  rcases List.mem_cons.mp member with same | member
  · obtain ⟨rfl, -⟩ := Prod.mk.inj same
    exact .inl (given named)
  · rcases List.mem_append.mp member with isPart | isRaw
    · obtain ⟨part, among, same⟩ := List.mem_map.mp isPart
      obtain ⟨rfl, rfl⟩ := Prod.mk.inj same
      rcases origin.parts part among with stands | ⟨-, isDefault⟩
      · rw [find?_ofFieldEntries, Option.map_eq_some_iff] at stands
        obtain ⟨item, found, -⟩ := stands
        exact .inl (given found)
      · exact .inr isDefault
    · rcases origin.rawParts _ isRaw with found | ⟨-, isDefault⟩
      · exact .inl (given found)
      · exact .inr isDefault

include json named origin in
/-- The object of a node is kept exactly if it is strict. -/
theorem keptIn_node_iff
    (ih : ∀ entry ∈ entries, ∀ part, ofField entry.2 = .ok part →
      (entry.2.KeptIn part.outline.toData ↔ entry.2.isStrict = true)) :
    (Value.map entries).KeptIn t.outline.toData ↔ (Value.map entries).isStrict = true := by
  have isKind : kindOf? entries = some kind := kindOf?_eq_some.mpr named
  have stored {name : String} {other : Value} : (text name, other) ∈
      (storedFields kind t).map (fun field => (text field.1, field.2)) ↔ (name, other) ∈ storedFields kind t := by
    simp
  have kept : EntriesKeptIn (rawField kind) entries
      ((storedFields kind t).map fun field => (.text field.1, field.2)) ↔ ∀ entry ∈ entries,
        isDeclared kind entry.1 = true ∧ ((rawField kind).any (entry.1.isText ·) || entry.2.isStrict) = true := by
    rw [entriesKeptIn_iff]
    refine forall₂_congr fun entry member => ?_
    obtain ⟨name, isName, found⟩ := lookup_of_mem_of_isJson json member
    rw [isName]
    simp only [stored]
    exact keptIn_field_iff named origin found (ih entry member)
  have defaults : ∀ field ∈ (storedFields kind t).map (fun field => (text field.1, field.2)),
      field.1 ∈ entries.map Prod.fst ∨ ∃ other name, some kind = some other ∧ field.1 = .text name ∧
        (name, field.2) ∈ fieldDefaults other := by
    rw [List.forall_mem_map]
    intro field member
    rcases default_of_mem_storedFields named origin member with given | isDefault
    · exact .inl given
    · exact .inr ⟨kind, field.1, rfl, rfl, isDefault⟩
  rw [toData_of_isOrigin json origin, object, KeptIn, isStrict, isKind, Option.bind_some,
    entriesAreStrict_eq_all, Bool.and_eq_true, List.all_eq_true, List.all_eq_true]
  constructor
  · rintro ⟨fields, same, all, -⟩
    obtain rfl := Value.map.inj same
    exact ⟨fun entry member => (kept.mp all entry member).1, fun entry member => (kept.mp all entry member).2⟩
  · rintro ⟨declared, strict⟩
    exact ⟨_, rfl, kept.mpr fun entry member => ⟨declared entry member, strict entry member⟩, defaults⟩

end Node

/-! ## Lists and objects without a kind -/

variable {entries : List (Value × Value)}

private theorem exists_of_forall₂ {results : List (Value × Tree)} {r : Value × Value → Value × Tree → Prop}
    (all : List.Forall₂ r entries results) : ∀ entry ∈ entries, ∃ result ∈ results, r entry result := by
  induction all with
  | nil => exact List.forall_mem_nil _
  | cons first _ ih =>
    refine List.forall_mem_cons.mpr ⟨⟨_, List.mem_cons_self .., first⟩, fun entry member => ?_⟩
    obtain ⟨result, among, related⟩ := ih entry member
    exact ⟨result, List.mem_cons_of_mem _ among, related⟩

/-- An object without a kind is kept exactly if what it holds is strict. -/
theorem keptIn_mapping_iff (json : (Value.map entries).isJson = true)
    (anonymous : kindOf? entries = none) {results : List (Value × Tree)}
    (read : List.Forall₂ (fun entry result => entry.1 = result.1 ∧ ofField entry.2 = .ok result.2)
      entries results)
    (ih : ∀ entry ∈ entries, ∀ part, ofField entry.2 = .ok part →
      (entry.2.KeptIn part.outline.toData ↔ entry.2.isStrict = true)) :
    (Value.map entries).KeptIn (mapping results).outline.toData ↔ (Value.map entries).isStrict = true := by
  have keys : entries.map Prod.fst = results.map Prod.fst :=
    map_eq_map_iff_forall₂.mpr (read.imp fun _ _ both => both.1)
  have distinct : (results.map Prod.fst).Nodup := by
    rw [← keys]
    refine List.Nodup.of_map asText ?_
    rw [List.map_map]
    exact ((isJson_map entries).mp json).1
  have kept : EntriesKeptIn none entries (results.map fun result => (result.1, result.2.outline.toData)) ↔
      ∀ entry ∈ entries, entry.2.isStrict = true := by
    rw [entriesKeptIn_iff]
    refine forall₂_congr fun entry member => ?_
    obtain ⟨result, among, same, readEntry⟩ := exists_of_forall₂ read entry member
    rw [← ih entry member result.2 readEntry, same]
    constructor
    · rintro ⟨other, otherMember, kept⟩
      obtain ⟨found, foundMember, isFound⟩ := List.mem_map.mp otherMember
      obtain ⟨sameKey, rfl⟩ := Prod.mk.inj isFound
      obtain rfl := List.inj_on_of_nodup_map distinct foundMember among sameKey
      exact kept
    · exact fun kept => ⟨_, List.mem_map.mpr ⟨result, among, rfl⟩, kept⟩
  have given : ∀ field ∈ results.map (fun result => (result.1, result.2.outline.toData)),
      field.1 ∈ entries.map Prod.fst := by
    rw [keys, List.forall_mem_map]
    exact fun result member => List.mem_map_of_mem member
  rw [outline, outlineEntries_eq_map, Outline.toData, entryData_eq_map, List.map_map, KeptIn, isStrict,
    anonymous, Option.bind_none, entriesAreStrict_eq_all]
  simp only [Function.comp_def, Value.map.injEq, exists_eq_left', kept]
  constructor
  · rintro ⟨strict, -⟩
    simpa using strict
  · intro strict
    exact ⟨by simpa using strict, fun field member => .inl (given field member)⟩

/-- A list is kept exactly if its items are strict. -/
theorem keptIn_tuple_iff {items : List Value} {results : List Tree}
    (read : List.Forall₂ (fun item result => ofField item = .ok result) items results)
    (ih : ∀ item ∈ items, ∀ part, ofField item = .ok part →
      (item.KeptIn part.outline.toData ↔ item.isStrict = true)) :
    (Value.list items).KeptIn (tuple results).outline.toData ↔ (Value.list items).isStrict = true := by
  rw [outline, outlines_eq_map, Outline.toData, itemData_eq_map, List.map_map, KeptIn, isStrict,
    itemsAreStrict_eq_all]
  simp only [Value.list.injEq, exists_eq_left', itemsKeptIn_iff, List.forall₂_map_right_iff]
  induction read with
  | nil => simp
  | cons first _ rest =>
    obtain ⟨here, others⟩ := List.forall_mem_cons.mp ih
    rw [List.forall₂_cons, List.all_cons, Bool.and_eq_true, rest others]
    exact and_congr_left fun _ => here _ first

/-! ## Documents -/

theorem exists_isOrigin {entries : List (Value × Value)} {t : Tree}
    (read : ofEntries entries (ofFieldEntries entries) = .ok t) :
    ∃ kind, lookup "kind" entries = some (.text kind) ∧
      ObjectFields.IsOrigin ⟨kind, entries, ofFieldEntries entries⟩ t := by
  unfold ofEntries at read
  split at read
  · rename_i kind named
    refine ⟨kind, named, ?_⟩
    cases found : ObjectFields.node? ⟨kind, entries, ofFieldEntries entries⟩ with
    | none => simp [found] at read
    | some result =>
      rw [found, Option.getD_some] at read
      exact ObjectFields.node?_origin (read ▸ found)
  · cases read
  · cases read

mutual

/-- What stands in a field is kept exactly if it is strict. -/
theorem keptIn_iff : (v : Value) → v.isJson = true → ∀ t, ofField v = .ok t →
    (v.KeptIn t.outline.toData ↔ v.isStrict = true)
  | .map entries, json, t, read => by
    have ih := keptIn_entries_iff entries fun entry member => (((isJson_map _).mp json).2 entry member).2
    cases isKind : kindOf? entries with
    | some kind =>
      have named := kindOf?_eq_some.mp isKind
      simp only [ofField, named] at read
      obtain ⟨kind, named, origin⟩ := exists_isOrigin read
      exact keptIn_node_iff json named origin ih
    | none =>
      have anonymous : ∀ kind, lookup "kind" entries ≠ some (.text kind) := fun kind found => by
        rw [← kindOf?_eq_some, isKind] at found
        cases found
      obtain ⟨results, rfl, readAll⟩ := (ofField_map_eq_ok_iff anonymous).mp read
      exact keptIn_mapping_iff json isKind readAll ih
  | .list items, json, t, read => by
    obtain ⟨results, rfl, readAll⟩ := ofField_list_eq_ok_iff.mp read
    exact keptIn_tuple_iff readAll (keptIn_items_iff items ((isJson_list items).mp json))
  | .null, _, t, read | .bool _, _, t, read | .int _, _, t, read | .float _, _, t, read
  | .text _, _, t, read => by
    obtain rfl := Except.ok.inj read
    exact ⟨fun _ => rfl, fun _ => rfl⟩
  | .tuple _, json, _, _ | .set _ _, json, _, _ | .external _ _, json, _, _ | .entity _, json, _, _
  | .record _, json, _, _ => by simp [isJson] at json

private theorem keptIn_items_iff : (items : List Value) → (∀ item ∈ items, item.isJson = true) →
    ∀ item ∈ items, ∀ t, ofField item = .ok t → (item.KeptIn t.outline.toData ↔ item.isStrict = true)
  | [], _ => List.forall_mem_nil _
  | item :: rest, json => by
    obtain ⟨first, others⟩ := List.forall_mem_cons.mp json
    exact List.forall_mem_cons.mpr ⟨keptIn_iff item first, keptIn_items_iff rest others⟩

private theorem keptIn_entries_iff : (entries : List (Value × Value)) →
    (∀ entry ∈ entries, entry.2.isJson = true) → ∀ entry ∈ entries, ∀ t, ofField entry.2 = .ok t →
      (entry.2.KeptIn t.outline.toData ↔ entry.2.isStrict = true)
  | [], _ => List.forall_mem_nil _
  | (_, item) :: rest, json => by
    obtain ⟨first, others⟩ := List.forall_mem_cons.mp json
    exact List.forall_mem_cons.mpr ⟨keptIn_iff item first, keptIn_entries_iff rest others⟩

end

/-- A document that reads as a node is kept in the data of the node exactly if it is strict. -/
theorem exists_keptIn_iff {data : Value} {t : Tree} (json : data.isJson = true) (read : ofData data = .ok t) :
    ∃ stored, t.toData = .ok stored ∧ (data.KeptIn stored ↔ data.isStrict = true) := by
  cases data with
  | map entries =>
    obtain ⟨kind, named, origin⟩ := exists_isOrigin read
    have readField : ofField (.map entries) = .ok t := by
      simp only [ofField, named]
      exact read
    exact ⟨t.outline.toData, by simp [toData, origin.kind], keptIn_iff _ json t readField⟩
  | _ => cases read

/-- A document with every optional field left out, and a literal that looks like a node with a field that
its kind does not have. -/
def sparse : Value :=
  .object [("kind", .text "Query"), ("clauses", .list [
    .object [("pattern", .object [("variable", .text "n"), ("kind", .text "Node")]), ("kind", .text "Match")],
    .object [("kind", .text "Where"), ("condition", .object [("kind", .text "Literal"),
      ("value", .object [("kind", .text "Limit"), ("of", .int 3)])])]])]

theorem exists_keptIn_iff_sparse : sparse.isJson = true ∧ sparse.isStrict = true ∧
    ∃ t stored, ofData sparse = .ok t ∧ t.toData = .ok stored ∧ sparse.KeptIn stored := by
  have json : sparse.isJson = true := by decide
  have strict : sparse.isStrict = true := by decide
  obtain ⟨t, read⟩ : ∃ t, ofData sparse = .ok t := ⟨_, rfl⟩
  obtain ⟨stored, storedAs, kept⟩ := exists_keptIn_iff json read
  exact ⟨json, strict, t, stored, read, storedAs, kept.mpr strict⟩

/-- The flag of a clause under a misspelled name. -/
def misspelled : Value :=
  .object [("kind", .text "Match"),
    ("pattern", .object [("kind", .text "Node"), ("variable", .text "n")]), ("optinal", .bool true)]

/-- A clause with a misspelled flag is read without the flag. -/
theorem not_keptIn_misspelled : misspelled.isJson = true ∧
    ∃ t stored, ofData misspelled = .ok t ∧ t.toData = .ok stored ∧ ¬misspelled.KeptIn stored := by
  have json : misspelled.isJson = true := by decide
  refine ⟨json, .matchClause (.node "n" [] none) (.bool false), _, rfl, rfl, fun kept => ?_⟩
  have strict := (keptIn_iff misspelled json _ rfl).mp kept
  revert strict
  decide

end Tree

end GraphQuery
