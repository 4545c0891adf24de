import GraphQuery.Proofs.Normal.Identity
import GraphQuery.Proofs.Syntax.Arranged
import GraphQuery.Proofs.Syntax.Reading

/-! # What canonical texts tell apart

The canonical text of a node is a text of its document with sorted fields. That document can be read
like data, and what is read is the node with every map in the order of its keys. So two nodes have
one canonical text exactly if they differ only in the order of the entries of maps.
-/

namespace GraphQuery.Tree

/-! ## Parts of arranged trees -/

theorem kind?_arranged (t : Tree) : t.arranged.kind? = t.kind? := by
  cases t <;> rfl

private theorem arrangedItems_ofNames (names : List String) :
    arrangedItems (names.map ofName) = names.map ofName := by
  rw [arrangedItems_eq_map, List.map_map]
  rfl

private theorem arranged_ofName? (s : Option String) : (ofName? s).arranged = ofName? s := by
  cases s <;> rfl

private theorem arranged_ofProperties (properties : Option (List (String × Tree))) :
    (ofProperties properties).arranged = ofProperties (arrangedProperties properties) := by
  cases properties with
  | none => rfl
  | some entries =>
    simp only [ofProperties, arranged, arrangedProperties, arrangedEntries_eq_map,
      arrangedFields_eq_map, sortByText_eq_sortByKey, sortByKey_map, List.map_map, Function.comp_def,
      Value.asText]

theorem parts_arranged (t : Tree) :
    t.arranged.parts = t.parts.map fun part => (part.1, part.2.arranged) := by
  cases t with
  | node | relationship | deleteClause =>
    simp only [arranged, parts, ofName, List.map_cons, List.map_nil, arrangedItems_ofNames,
      arranged_ofName?, arranged_ofProperties]
  | _ => rfl

theorem rawParts_arranged (t : Tree) :
    t.arranged.rawParts = t.rawParts.map fun part => (part.1, part.2.ordered) := by
  cases t <;> rfl

/-! ## Documents -/

theorem entryDocuments_eq_map (entries : List (Value × Outline)) :
    Outline.entryDocuments entries =
      entries.map fun entry => (entry.1.keyName?.getD entry.1.asText, entry.2.document) := by
  induction entries with
  | nil => rfl
  | cons entry rest ih => rw [Outline.entryDocuments, ih, List.map_cons]

theorem itemDocuments_eq_map (items : List Outline) :
    Outline.itemDocuments items = items.map Outline.document := by
  induction items with
  | nil => rfl
  | cons item rest ih => rw [Outline.itemDocuments, ih, List.map_cons]

private theorem document_ofProperties (properties : Option (List (String × Tree))) :
    (outlineProperties properties).document = (ofProperties properties).outline.document := by
  cases properties with
  | none => rfl
  | some entries =>
    simp only [ofProperties, outline, outlineProperties, Outline.document, outlineEntries_eq_map,
      outlineFields_eq_map, entryDocuments_eq_map, fieldDocuments_eq_map, List.map_map,
      Function.comp_def, Value.keyName?, Option.getD_some]

/-- The document of a node: its kind and its fields. -/
theorem document_outline {t : Tree} {kind : String} (node : t.kind? = some kind)
    (json : ∀ part ∈ t.rawParts, part.2.isJson) :
    t.outline.document = .object (("kind", .text kind) ::
      (t.parts.map (fun part => (part.1, part.2.outline.document)) ++
        t.rawParts.map fun part => (part.1, part.2.tagged))) := by
  cases t with
  | scalar | tuple | mapping => cases node
  | node | relationship | deleteClause =>
    cases node
    simp only [outline, Outline.document, Outline.fieldDocuments, parts, rawParts, List.map_cons,
      List.map_nil, List.append_nil, document_ofProperties, outlines_ofNames, outline_ofName?, ofName,
      Outline.name]
  | query clauses parameters =>
    cases node
    have all := ((Value.isJson_map _).mp (json _ (.head _))).2
    have named : Value.ofTaggedEntries "mappingproxy" (Value.taggedEntries parameters) =
        (Value.map parameters).tagged := by
      rw [Value.ofTaggedEntries_of_texts _ fun entry member => (all entry member).1,
        Value.tagged_map fun entry member => (all entry member).1]
    simp only [outline, Outline.document, Outline.fieldDocuments, parts, rawParts, List.map_cons,
      List.map_nil, List.cons_append, List.nil_append, named]
  | _ =>
    cases node
    rfl

/-! ## Reading sorted documents -/

private theorem ofJson_sorted_object (fields : List (String × Json)) :
    Value.ofJson (Json.object fields).sorted =
      Value.object (sortByKey Prod.fst (fields.map fun field => (field.1, .ofJson field.2.sorted))) := by
  rw [Json.sorted_object, Value.ofJson, Value.ofJsonFields_eq_map, Json.sortedFields_eq_map,
    sortByKey_map, sortByKey_map, Value.object, List.map_map, List.map_map]
  rfl

private theorem exists_holds_arranged {t : Tree} {kind : String} (node : t.kind? = some kind)
    (json : ∀ part ∈ t.rawParts, part.2.isJson)
    (read : ∀ part ∈ t.parts, ofField (.ofJson part.2.outline.document.sorted) = .ok part.2.arranged) :
    ∃ fields, Value.ofJson t.outline.document.sorted = Value.object fields ∧
      t.arranged.Holds fields := by
  have named : t.arranged.kind? = some kind := by rw [kind?_arranged, node]
  have holds := Holds.of_parts named (fun part => .ofJson part.outline.document.sorted) arranged
    (parts_arranged t) read
  have raw : t.arranged.rawParts =
      t.rawParts.map fun part => (part.1, .ofJson part.2.tagged.sorted) := by
    rw [rawParts_arranged]
    apply List.map_congr_left
    intro part member
    have ordered : part.2.ordered.isJson := part.2.reordered_ordered.isJson_eq ▸ json part member
    rw [Value.sorted_tagged part.2 (json part member), Value.ofJson_tagged part.2.ordered ordered]
  rw [document_outline node json, ofJson_sorted_object]
  refine ⟨_, rfl, holds.of_perm ?_⟩
  rw [List.map_cons, List.map_append, List.map_map, List.map_map, raw]
  exact (sortByKey_perm _ _).symm

private theorem ofField_sorted_scalar {value : Value} (atom : value.isAtom) :
    ofField (.ofJson (Outline.scalarDocument value).sorted) = .ok (.scalar value) := by
  cases value <;> first | rfl | cases atom

/-- The sorted document of what stands in the fields of nodes reads as its arranged form. -/
theorem ofField_sorted_document {t : Tree} (content : t.IsContent) :
    ofField (.ofJson t.outline.document.sorted) = .ok t.arranged := by
  induction t using induction_on_parts with
  | node t isNode ih =>
    obtain ⟨kind, named⟩ := Option.isSome_iff_exists.mp isNode
    cases content with
    | scalar | tuple | mapping => cases named
    | node storable =>
      have formed := wellFormed_of_storable storable
      obtain ⟨fields, stands, holds⟩ := exists_holds_arranged named (isJson_of_storable storable)
        fun part member => ih part member (isContent_of_mem_parts formed part member)
      rw [stands]
      exact holds.ofField_eq (by rw [kind?_arranged, named]) (wellFormed_arranged formed)
  | scalar value =>
    cases content with
    | node storable => cases storable
    | scalar atom => exact ofField_sorted_scalar atom
  | tuple items ih =>
    cases content with
    | node storable => cases storable
    | tuple all =>
      rw [outline, outlines_eq_map, Outline.document, itemDocuments_eq_map, Json.sorted,
        Json.sortedItems_eq_map, Value.ofJson, Value.ofJsonItems_eq_map, List.map_map, List.map_map,
        List.map_map, ofField_list_eq_ok_iff]
      refine ⟨arrangedItems items, rfl, ?_⟩
      rw [arrangedItems_eq_map, List.forall₂_map_left_iff, List.forall₂_map_right_iff,
        List.forall₂_same]
      exact fun item member => ih item member (all item member)
  | mapping entries ih =>
    cases content with
    | node storable => cases storable
    | @mapping properties distinct expressions all =>
      have stands : Value.ofJson (mapping (properties.map fun entry =>
            (.text entry.1, entry.2))).outline.document.sorted =
          Value.object ((sortByKey Prod.fst properties).map fun entry =>
            (entry.1, .ofJson entry.2.outline.document.sorted)) := by
        simp only [outline, Outline.document, outlineEntries_eq_map, entryDocuments_eq_map, List.map_map,
          Value.keyName?, Option.getD_some, ofJson_sorted_object, sortByKey_map, Function.comp_def]
      have fields : (mapping (properties.map fun entry => (.text entry.1, entry.2))).arranged =
          .mapping ((sortByKey Prod.fst properties).map fun entry => (.text entry.1, entry.2.arranged)) := by
        simp only [arranged, arrangedEntries_eq_map, List.map_map, sortByText_eq_sortByKey,
          sortByKey_map, Function.comp_def, Value.asText]
      have among {entry : String × Tree} (member : entry ∈ sortByKey Prod.fst properties) :
          entry ∈ properties := (sortByKey_perm _ _).mem_iff.mp member
      rw [stands, fields, Value.object, List.map_map, ofField_map_eq_ok_iff]
      · refine ⟨_, rfl, ?_⟩
        rw [List.forall₂_map_left_iff, List.forall₂_map_right_iff, List.forall₂_same]
        intro entry member
        exact ⟨rfl, ih _ (List.mem_map_of_mem (among member)) (all entry (among member))⟩
      · -- A property that is called "kind" holds an object, not a name.
        intro kind found
        obtain ⟨entry, member, same⟩ := List.mem_map.mp (Value.exists_mem_of_lookup found)
        obtain ⟨_, named⟩ := exists_kind_of_isExpression (expressions entry (among member))
        obtain ⟨fields, outlined, -⟩ := exists_outline_eq_node named
        simp [outlined, Outline.document, Json.sorted, Value.ofJson] at same

/-- Nodes with one sorted document have one arranged form. -/
theorem arranged_eq_of_sorted_document {t other : Tree} (storable : t.storable)
    (otherStorable : other.storable)
    (same : t.outline.document.sorted = other.outline.document.sorted) : t.arranged = other.arranged := by
  have read := ofField_sorted_document (.node storable)
  rw [same, ofField_sorted_document (.node otherStorable)] at read
  exact (Except.ok.inj read).symm

/-! ## Reordering keeps the document -/

/-- A query is in no field of a well-formed node. -/
theorem ofTree?_of_plug {frame : Frame} {t : Tree} (formed : (frame.plug t).wellFormed) :
    Query.ofTree? t = none := by
  cases t with
  | query clauses parameters =>
    cases frame <;>
      simp [Frame.plug, wellFormed, propertiesWellFormed, entriesWellFormed_eq_all, isExpression,
        isPathElement, isPattern, isReturnItem, isAssignment, isOrderItem, isClause, rank?] at formed
  | _ => rfl

theorem storable_of_plug {frame : Frame} {t : Tree} (storable : (frame.plug t).storable) :
    t.storable :=
  have formed := wellFormed_of_storable storable
  storable_of_wellFormed (wellFormed_of_plug formed) (ofTree?_of_plug formed)

theorem storable_eq_of_congruent {t other : Tree} (same : Congruent Reordering t other) :
    t.storable = other.storable := by
  have formed := same.wellFormed_eq (fun _ _ => Reordering.role_eq) fun _ _ => Reordering.wellFormed_eq
  rw [storable, storable, formed]
  congr 1
  clear formed
  induction same with
  | refl t => rfl
  | symm _ ih => exact ih.symm
  | trans _ _ first second => exact first.trans second
  | inside frame => cases frame <;> rfl
  | rule follows =>
    cases follows with
    | literal same => simp only [rawParts, List.all_cons, same.isJson_eq]
    | nodeProperties | relationshipProperties => rfl
    | parameters clauses perm =>
      simp only [rawParts, List.all_cons, (Value.Reordered.entries perm).isJson_eq]
    | parameter clauses before after key same =>
      simp only [rawParts, List.all_cons, (Value.Reordered.entry before after key same).isJson_eq]

private theorem sorted_tagged_eq {v w : Value} (same : v.Reordered w) (json : v.isJson) :
    v.tagged.sorted = w.tagged.sorted := by
  rw [Value.sorted_tagged v json, Value.sorted_tagged w (same.isJson_eq ▸ json), same.ordered_eq json]

private theorem sorted_fieldDocuments_eq {entries others : List (String × Tree)}
    (perm : entries.Perm others) (distinct : (entries.map Prod.fst).Nodup) :
    (Json.object (Outline.fieldDocuments (outlineFields entries))).sorted =
      (Json.object (Outline.fieldDocuments (outlineFields others))).sorted := by
  simp only [fieldDocuments_eq_map, outlineFields_eq_map, Json.sorted_object, Json.sortedFields_eq_map,
    List.map_map, Json.object.injEq]
  refine sortByKey_eq_of_perm (List.inj_on_of_nodup_map ?_) (perm.map _)
  simpa only [List.map_map, Function.comp_def] using distinct

private theorem document_query {clauses : List Tree} {parameters : List (Value × Value)}
    (json : (Value.map parameters).isJson) : (query clauses parameters).outline.document = .object
      [("kind", .text "Query"), ("clauses", (tuple clauses).outline.document),
        ("parameters", (Value.map parameters).tagged)] :=
  document_outline rfl (List.forall_mem_singleton.mpr json)

private theorem sorted_document_query_eq (clauses : List Tree) {parameters others : List (Value × Value)}
    (same : (Value.map parameters).Reordered (.map others)) (json : (Value.map parameters).isJson) :
    (query clauses parameters).outline.document.sorted =
      (query clauses others).outline.document.sorted := by
  rw [document_query json, document_query (same.isJson_eq ▸ json)]
  simp only [Json.sorted, Json.sortedFields, sorted_tagged_eq same json]

/-- Trees with one sorted document can stand for each other in a node without changing that of the node. -/
theorem sorted_document_plug_eq (frame : Frame) {t other : Tree}
    (same : t.outline.document.sorted = other.outline.document.sorted) :
    (frame.plug t).outline.document.sorted = (frame.plug other).outline.document.sorted := by
  cases frame <;>
    simp only [Frame.plug, outline, outlineProperties, Outline.document, Outline.fieldDocuments,
      itemDocuments_outlines, fieldDocuments_eq_map, outlineFields_eq_map, Json.sorted,
      Json.sortedFields, Json.sortedItems_eq_map, Json.sortedFields_eq_map, List.map_append,
      List.map_cons, same]

/-- Congruent nodes have one sorted document. -/
theorem sorted_document_eq_of_congruent {t other : Tree} (same : Congruent Reordering t other)
    (storable : t.storable) : t.outline.document.sorted = other.outline.document.sorted := by
  induction same with
  | refl t => rfl
  | symm previous ih => exact (ih (storable_eq_of_congruent previous ▸ storable)).symm
  | trans first _ ihFirst ihSecond =>
    exact (ihFirst storable).trans (ihSecond (storable_eq_of_congruent first ▸ storable))
  | inside frame _ ih => exact sorted_document_plug_eq frame (ih (storable_of_plug storable))
  | rule follows =>
    have formed := wellFormed_of_storable storable
    have json := isJson_of_storable storable
    cases follows with
    | literal same =>
      have value := sorted_tagged_eq same (json _ (.head _))
      simp only [outline, Outline.document, Outline.fieldDocuments, Json.sorted, Json.sortedFields, value]
    | nodeProperties name labels perm =>
      simp only [wellFormed, propertiesWellFormed, Bool.and_eq_true, decide_eq_true_eq] at formed
      have fields := sorted_fieldDocuments_eq perm formed.1
      simp only [outline, outlineProperties, Outline.document, Outline.fieldDocuments,
        Json.sorted_object, Json.sortedFields] at fields ⊢
      rw [fields]
    | relationshipProperties direction type name perm =>
      simp only [wellFormed, propertiesWellFormed, Bool.and_eq_true, decide_eq_true_eq] at formed
      have fields := sorted_fieldDocuments_eq perm formed.2.1
      simp only [outline, outlineProperties, Outline.document, Outline.fieldDocuments,
        Json.sorted_object, Json.sortedFields] at fields ⊢
      rw [fields]
    | parameters clauses perm => exact sorted_document_query_eq clauses (.entries perm) (json _ (.head _))
    | parameter clauses before after key same =>
      exact sorted_document_query_eq clauses (.entry before after key same) (json _ (.head _))

/-! ## Canonical texts -/

/-- Nodes have one canonical text exactly if they differ only in the order of the entries of maps. -/
theorem canonicalText_eq_iff_congruent {t other : Tree} (storable : t.storable)
    (otherStorable : other.storable) :
    ∃ text otherText, t.nodeText = .ok text ∧ other.nodeText = .ok otherText ∧
      (text = otherText ↔ Congruent Reordering t other) := by
  have formed := wellFormed_of_storable storable
  have otherFormed := wellFormed_of_storable otherStorable
  obtain ⟨kind, node⟩ := exists_kind_of_wellFormed formed
  obtain ⟨otherKind, otherNode⟩ := exists_kind_of_wellFormed otherFormed
  refine ⟨t.canonicalText, other.canonicalText, by rw [nodeText, node]; rfl,
    by rw [nodeText, otherNode]; rfl, ?_⟩
  rw [canonicalText, canonicalText, Json.canonicalText_eq_iff]
  constructor
  · intro same
    have arranged := arranged_eq_of_sorted_document storable otherStorable same
    exact (congruent_arranged t formed).trans (arranged ▸ (congruent_arranged other otherFormed).symm)
  · exact fun same => sorted_document_eq_of_congruent same storable

/-- A map that holds a number as an integer, as a float and as a text, and a map that looks like the
data of a node. -/
def numerals : Value :=
  .map [(.text "a", .list [.int 1, .float 1, .text "1", .bool true, .null]),
    (.text "b", .map [(.text "kind", .text "Literal"), (.text "value", .map [])])]

/-- A query whose maps come in two orders. -/
def numeralQuery (entries : List (String × Tree)) (parameters : List (Value × Value)) : Tree :=
  .query [.createClause (.node "n" ["A"] (some entries)),
    .returnClause [.expressionItem (.literal numerals) .null]] parameters

theorem canonicalText_eq_iff_congruent_numerals :
    let first := numeralQuery [("kind", .literal (.int 1)), ("b", .parameter "p")]
      [(.text "p", numerals), (.text "kind", .null)]
    let second := numeralQuery [("b", .parameter "p"), ("kind", .literal (.int 1))]
      [(.text "kind", .null), (.text "p", numerals)]
    first.storable ∧ second.storable ∧ ∃ text otherText,
      first.nodeText = .ok text ∧ second.nodeText = .ok otherText ∧
        (text = otherText ↔ Congruent Reordering first second) := by
  intro first second
  have storable : first.storable := by decide +kernel
  have otherStorable : second.storable := by decide +kernel
  exact ⟨storable, otherStorable, canonicalText_eq_iff_congruent storable otherStorable⟩

end GraphQuery.Tree
