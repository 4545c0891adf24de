import GraphQuery.Proofs.Syntax.Identity
import GraphQuery.Proofs.Syntax.Literals
import GraphQuery.Proofs.Value.Copied
import GraphQuery.Query.Copy

/-! # Queries up to the order of sets

Queries that differ only in the order in which sets list their items have one canonical text, and so
one digest, and an integer that is too long for one of them is too long for the other. Only a text that
shows the literals themselves can tell them apart.
-/

namespace GraphQuery

/-! ## Values of outlines -/

namespace Outline

theorem fieldValues_eq_flatMap (fields : List (String × Outline)) :
    fieldValues fields = fields.flatMap fun field => field.2.values := by
  induction fields with
  | nil => rfl
  | cons field rest ih => rw [fieldValues, ih, List.flatMap_cons]

theorem itemValues_eq_flatMap (items : List Outline) : itemValues items = items.flatMap values := by
  induction items with
  | nil => rfl
  | cons item rest ih => rw [itemValues, ih, List.flatMap_cons]

/-- Whether the values that an outline shows can all be written. -/
def isWritable (o : Outline) : Bool :=
  o.values.all Value.isWritable

end Outline

namespace Tree

/-- Equality of trees up to the order in which the sets in literals list their items. -/
def SetwiseEqual (t other : Tree) : Prop :=
  Congruent (LiteralRule Value.SetwiseEqual) t other

namespace SetwiseEqual

variable {t other : Tree}

/-- The document of a tree does not show the order in which sets list their items. -/
theorem sorted_document_eq (same : t.SetwiseEqual other) :
    t.outline.document.sorted = other.outline.document.sorted := by
  induction same with
  | refl t => rfl
  | symm _ ih => exact ih.symm
  | trans _ _ first second => exact first.trans second
  | inside frame _ ih => exact sorted_document_plug_eq frame ih
  | rule follows =>
    cases follows with
    | literal values =>
      simp only [outline, Outline.document, Outline.fieldDocuments, Json.sorted, Json.sortedFields,
        values.sorted_tagged_eq]

theorem canonicalText_eq (same : t.SetwiseEqual other) : t.canonicalText = other.canonicalText :=
  Json.canonicalText_eq_iff.mpr same.sorted_document_eq

/-- Whether the values of a tree can be written does not depend on the order in which sets list their
items. -/
theorem isWritable_outline_eq (same : t.SetwiseEqual other) :
    t.outline.isWritable = other.outline.isWritable := by
  induction same with
  | refl t => rfl
  | symm _ ih => exact ih.symm
  | trans _ _ first second => exact first.trans second
  | inside frame _ ih =>
    rw [Outline.isWritable, Outline.isWritable] at ih
    cases frame <;>
      simp only [Outline.isWritable, Frame.plug, outline, outlineProperties, Outline.values,
        Outline.fieldValues_eq_flatMap, Outline.itemValues_eq_flatMap, outlines_eq_map, outlineFields_eq_map,
        List.flatMap_cons, List.flatMap_append, List.map_append, List.map_cons, List.all_append, ih]
  | rule follows =>
    cases follows with
    | literal values =>
      simp only [Outline.isWritable, outline, Outline.values, Outline.fieldValues, List.append_nil,
        List.all_cons, values.isWritable_eq]

end SetwiseEqual

theorem setwiseEqual_mapLiterals {f : Value → Value} (equal : ∀ v, (f v).SetwiseEqual v) (t : Tree) :
    (t.mapLiterals f).SetwiseEqual t :=
  congruent_mapLiterals equal t

end Tree

/-! ## Parameters -/

/-- Equality of entries up to the order in which the sets in items list their items. -/
def SetwiseEqualEntries (entries others : List (Value × Value)) : Prop :=
  List.Forall₂ (fun a b => a.1 = b.1 ∧ a.2.SetwiseEqual b.2) entries others

/-- Statements with one text and equal parameters. The order in which the sets in parameters list their
items is left out. -/
structure Statement.SetwiseEqual (statement other : Statement) : Prop where
  text : statement.text = other.text
  parameters : SetwiseEqualEntries statement.parameters other.parameters

namespace Query

/-- Equality of queries up to the order in which sets list their items: clauses, labels, properties,
assignments, keys and parameters come in the same order. -/
structure SetwiseEqual (q other : Query) : Prop where
  clauses : List.Forall₂ Tree.SetwiseEqual q.clauses other.clauses
  parameters : SetwiseEqualEntries q.parameters other.parameters

/-- A query can be written if its clauses and its parameters can. -/
theorem isWritable_outline_toTree (q : Query) : q.toTree.outline.isWritable =
    ((q.clauses.map fun t => t.outline.isWritable).all id &&
      (q.parameters.map fun entry => entry.1.isWritable && entry.2.isWritable).all id) := by
  simp only [Outline.isWritable, toTree, Tree.outline, Outline.values, Outline.fieldValues,
    Outline.itemValues_eq_flatMap, Tree.outlines_eq_map, List.flatMap_map, List.all_append, List.all_flatMap,
    List.all_map, List.append_nil, List.all_cons, List.all_nil, Bool.and_true, Function.comp_def, id]

theorem writtenText_toTree (q : Query) : q.toTree.writtenText =
    if q.toTree.outline.isWritable then .ok q.toTree.canonicalText else .error .tooLongToWrite := rfl

namespace SetwiseEqual

variable {q other : Query}

private theorem sorted_document_eq (same : q.SetwiseEqual other) :
    q.toTree.outline.document.sorted = other.toTree.outline.document.sorted := by
  have clauses : (q.clauses.map fun t => t.outline.document.sorted) =
      other.clauses.map fun t => t.outline.document.sorted :=
    map_eq_map_iff_forall₂.mpr (same.clauses.imp fun _ _ => Tree.SetwiseEqual.sorted_document_eq)
  have parameters : (Value.ofTaggedEntries "mappingproxy" (Value.taggedEntries q.parameters)).sorted =
      (Value.ofTaggedEntries "mappingproxy" (Value.taggedEntries other.parameters)).sorted := by
    apply Value.sorted_ofTaggedEntries_congr
    rw [Value.taggedEntries_eq_map, Value.taggedEntries_eq_map, List.forall₂_map_left_iff,
      List.forall₂_map_right_iff]
    exact same.parameters.imp fun _ _ both => ⟨by rw [both.1], both.2.sorted_tagged_eq⟩
  simp only [toTree, Tree.outline, Outline.document, Outline.fieldDocuments, Tree.itemDocuments_outlines,
    Json.sorted, Json.sortedFields, Json.sortedItems_eq_map, List.map_map, Function.comp_def, clauses,
    parameters]

private theorem isWritable_outline_eq (same : q.SetwiseEqual other) :
    q.toTree.outline.isWritable = other.toTree.outline.isWritable := by
  have clauses : (q.clauses.map fun t => t.outline.isWritable) =
      other.clauses.map fun t => t.outline.isWritable :=
    map_eq_map_iff_forall₂.mpr (same.clauses.imp fun _ _ => Tree.SetwiseEqual.isWritable_outline_eq)
  have parameters : (q.parameters.map fun entry => entry.1.isWritable && entry.2.isWritable) =
      other.parameters.map fun entry => entry.1.isWritable && entry.2.isWritable :=
    map_eq_map_iff_forall₂.mpr
      (same.parameters.imp fun _ _ both => by rw [both.1, both.2.isWritable_eq])
  rw [isWritable_outline_toTree, isWritable_outline_toTree, clauses, parameters]

/-- Equal queries have one canonical text, or for both of them an integer is too long to be written. -/
theorem writtenText_eq (same : q.SetwiseEqual other) : q.toTree.writtenText = other.toTree.writtenText := by
  rw [writtenText_toTree, writtenText_toTree, same.isWritable_outline_eq,
    Tree.canonicalText, Tree.canonicalText, Json.canonicalText_eq_iff.mpr same.sorted_document_eq]

end SetwiseEqual

end Query

end GraphQuery
