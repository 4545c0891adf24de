import GraphQuery.Proofs.Json.Compact
import GraphQuery.Proofs.Json.Sorted
import GraphQuery.Proofs.Value.Identity
import GraphQuery.Query.Normal

/-! # Canonical texts of normal expressions

The operands of a chain are sorted by their canonical texts. Among expressions whose literals are
ordered values of documents the canonical text tells different ones apart, so that no two operands
keep their places only because they came in them.
-/

namespace GraphQuery.Tree

/-- Expressions whose literals are ordered values of documents. -/
inductive IsOrdered : Tree → Prop where
  | literal {value : Value} : value.isJson → value.ordered = value → IsOrdered (.literal value)
  | property (subject key : String) : IsOrdered (.property subject key)
  | parameter (name : String) : IsOrdered (.parameter name)
  | binary (op : String) {left right : Tree} :
    IsOrdered left → IsOrdered right → IsOrdered (.binary op left right)
  | unary (op : String) {operand : Tree} : IsOrdered operand → IsOrdered (.unary op operand)
  | call (name : String) {args : List Tree} :
    (∀ arg ∈ args, IsOrdered arg) → IsOrdered (.call name args)

/-! ## Kinds -/

/-- The outline of a node names its kind, and none of its fields is called like that. -/
theorem exists_outline_eq_node {t : Tree} {kind : String} (node : t.kind? = some kind) :
    ∃ fields, t.outline = .node kind fields ∧ "kind" ∉ fields.map Prod.fst := by
  cases t <;> simp_all [kind?, outline]

theorem fieldDocuments_eq_map (fields : List (String × Outline)) :
    Outline.fieldDocuments fields = fields.map fun field => (field.1, field.2.document) := by
  induction fields with
  | nil => rfl
  | cons field rest ih => rw [Outline.fieldDocuments, ih, List.map_cons]

/-- Nodes whose documents are the same up to the order of fields are of one kind. -/
theorem kind?_eq_of_sorted_document {t other : Tree} {kind otherKind : String}
    (node : t.kind? = some kind) (otherNode : other.kind? = some otherKind)
    (same : t.outline.document.sorted = other.outline.document.sorted) : kind = otherKind := by
  obtain ⟨fields, outlined, -⟩ := exists_outline_eq_node node
  obtain ⟨others, otherOutlined, unique⟩ := exists_outline_eq_node otherNode
  rw [outlined, otherOutlined] at same
  refine Json.kind_eq_of_sorted_eq ?_ same
  rw [fieldDocuments_eq_map, List.map_map]
  exact unique

/-- Nodes of one kind have the same fields up to the order of the fields within them. -/
theorem sortedFields_eq_of_sorted_document {t other : Tree} {kind : String}
    {fields others : List (String × Outline)} (outlined : t.outline = .node kind fields)
    (otherOutlined : other.outline = .node kind others)
    (names : fields.map Prod.fst = others.map Prod.fst) (distinct : ("kind" :: fields.map Prod.fst).Nodup)
    (same : t.outline.document.sorted = other.outline.document.sorted) :
    Json.sortedFields (Outline.fieldDocuments fields) =
      Json.sortedFields (Outline.fieldDocuments others) := by
  have documentNames (fields : List (String × Outline)) :
      (Outline.fieldDocuments fields).map Prod.fst = fields.map Prod.fst := by
    rw [fieldDocuments_eq_map, List.map_map]
    rfl
  rw [outlined, otherOutlined] at same
  have equal := Json.sortedFields_eq_of_sorted_eq ?_ ?_ same
  · exact (List.cons.inj equal).2
  · rw [List.map_cons, List.map_cons, documentNames, documentNames, names]
  · rw [List.map_cons, documentNames]
    exact distinct

theorem document_name (s : String) : (Outline.name s).document = .text s := rfl

theorem itemDocuments_outlines (items : List Tree) :
    Outline.itemDocuments (outlines items) = items.map fun t => t.outline.document := by
  induction items with
  | nil => rfl
  | cons item rest ih => rw [outlines, Outline.itemDocuments, ih, List.map_cons]

/-! ## Expressions -/

private theorem IsOrdered.kind_isSome {t : Tree} (ordered : t.IsOrdered) : ∃ kind, t.kind? = some kind := by
  cases ordered <;> exact ⟨_, rfl⟩

private theorem IsOrdered.kind?_eq {t other : Tree} (ordered : t.IsOrdered)
    (otherOrdered : other.IsOrdered)
    (same : t.outline.document.sorted = other.outline.document.sorted) : t.kind? = other.kind? := by
  obtain ⟨kind, node⟩ := ordered.kind_isSome
  obtain ⟨otherKind, otherNode⟩ := otherOrdered.kind_isSome
  rw [node, otherNode, kind?_eq_of_sorted_document node otherNode same]

private theorem eq_of_map_sorted_document {args others : List Tree}
    (eq : ∀ arg ∈ args, ∀ other ∈ others, arg.outline.document.sorted = other.outline.document.sorted →
      arg = other)
    (same : args.map (fun t => t.outline.document.sorted) = others.map fun t => t.outline.document.sorted) :
    args = others := by
  induction args generalizing others with
  | nil => exact (List.map_eq_nil_iff.mp same.symm).symm
  | cons arg args ih =>
    cases others with
    | nil => simp at same
    | cons other others =>
      obtain ⟨first, rest⟩ := List.cons.inj same
      rw [eq arg (List.mem_cons_self ..) other (List.mem_cons_self ..) first,
        ih (fun arg member other otherMember =>
          eq arg (List.mem_cons_of_mem _ member) other (List.mem_cons_of_mem _ otherMember)) rest]

/-- Ordered expressions whose documents are the same up to the order of fields are the same. -/
theorem IsOrdered.eq_of_sorted_document {t other : Tree} (ordered : t.IsOrdered)
    (otherOrdered : other.IsOrdered)
    (same : t.outline.document.sorted = other.outline.document.sorted) : t = other := by
  have kinds := ordered.kind?_eq otherOrdered same
  induction ordered generalizing other with
  | @literal value json fixed =>
    cases otherOrdered with
    | literal otherJson otherFixed =>
      have fields := sortedFields_eq_of_sorted_document rfl rfl (by rfl) (by simp) same
      simp only [Outline.fieldDocuments, Json.sortedFields, Outline.document, List.cons.injEq,
        Prod.mk.injEq, true_and, and_true] at fields
      rw [← fixed, ← otherFixed, Value.ordered_eq_of_sorted_tagged json otherJson fields]
    | _ => simp [kind?] at kinds
  | property subject key =>
    cases otherOrdered with
    | property otherSubject otherKey =>
      have fields := sortedFields_eq_of_sorted_document rfl rfl (by rfl) (by simp) same
      simp only [Outline.fieldDocuments, Json.sortedFields, document_name, Json.sorted, List.cons.injEq,
        Prod.mk.injEq, true_and, and_true, Json.text.injEq] at fields
      rw [fields.1, fields.2]
    | _ => simp [kind?] at kinds
  | parameter name =>
    cases otherOrdered with
    | parameter otherName =>
      have fields := sortedFields_eq_of_sorted_document rfl rfl (by rfl) (by simp) same
      simp only [Outline.fieldDocuments, Json.sortedFields, document_name, Json.sorted, List.cons.injEq,
        Prod.mk.injEq, true_and, and_true, Json.text.injEq] at fields
      rw [fields]
    | _ => simp [kind?] at kinds
  | binary op left right ihLeft ihRight =>
    cases otherOrdered with
    | binary otherOp otherLeft otherRight =>
      have fields := sortedFields_eq_of_sorted_document rfl rfl (by rfl) (by simp) same
      simp only [Outline.fieldDocuments, Json.sortedFields, document_name, Json.sorted, List.cons.injEq,
        Prod.mk.injEq, true_and, and_true, Json.text.injEq] at fields
      obtain ⟨sameOp, sameLeft, sameRight⟩ := fields
      rw [sameOp, ihLeft otherLeft sameLeft (left.kind?_eq otherLeft sameLeft),
        ihRight otherRight sameRight (right.kind?_eq otherRight sameRight)]
    | _ => simp [kind?] at kinds
  | unary op operand ih =>
    cases otherOrdered with
    | unary otherOp otherOperand =>
      have fields := sortedFields_eq_of_sorted_document rfl rfl (by rfl) (by simp) same
      simp only [Outline.fieldDocuments, Json.sortedFields, document_name, Json.sorted, List.cons.injEq,
        Prod.mk.injEq, true_and, and_true, Json.text.injEq] at fields
      obtain ⟨sameOp, sameOperand⟩ := fields
      rw [sameOp, ih otherOperand sameOperand (operand.kind?_eq otherOperand sameOperand)]
    | _ => simp [kind?] at kinds
  | call name all ih =>
    cases otherOrdered with
    | call otherName otherAll =>
      have fields := sortedFields_eq_of_sorted_document rfl rfl (by rfl) (by simp) same
      simp only [Outline.fieldDocuments, Json.sortedFields, document_name, Outline.document,
        itemDocuments_outlines, Json.sortedItems_eq_map, List.map_map, Json.sorted, List.cons.injEq,
        Prod.mk.injEq, true_and, and_true, Json.text.injEq, Json.array.injEq] at fields
      obtain ⟨sameName, sameArgs⟩ := fields
      rw [sameName, eq_of_map_sorted_document (fun arg member other otherMember equal =>
        ih arg member (otherAll other otherMember) equal
          ((all arg member).kind?_eq (otherAll other otherMember) equal)) sameArgs]
    | _ => simp [kind?] at kinds

/-- The canonical text tells different ordered expressions apart. -/
theorem IsOrdered.eq_of_canonicalText {t other : Tree} (ordered : t.IsOrdered)
    (otherOrdered : other.IsOrdered) (same : t.canonicalText = other.canonicalText) : t = other :=
  ordered.eq_of_sorted_document otherOrdered (Json.canonicalText_eq_iff.mp same)

end GraphQuery.Tree
