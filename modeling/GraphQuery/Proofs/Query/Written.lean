import GraphQuery.Proofs.Normal.Canonical
import GraphQuery.Proofs.Normal.Copied
import GraphQuery.Proofs.Normal.Values

/-! # Queries that can be copied and written

If a document can hold all values of a query and none of their integers is too long, then only deeply
nested parameters can be in the way of what is made of the query: its values are copied as they are, and
its text, the text of its normal form, its canonical text and its digest can be written.
-/

namespace GraphQuery

namespace Value

/-- The lists and maps of a document are made anew when a literal is copied. -/
theorem isJson_of_mem_leaves {v : Value} (json : v.isJson = true) :
    ∀ leaf ∈ v.leaves, leaf.isJson = true ∧ ∀ levels, leaf.nestsWithin levels = true := by
  induction v using induction_parts with
  | step v ih =>
    cases v with
    | list items =>
      rw [leaves, leavesOfItems_eq_flatMap, List.forall_mem_flatMap]
      exact fun item member => ih item member ((isJson_list items).mp json item member)
    | map entries =>
      rw [leaves, leavesOfEntries_eq_flatMap, List.forall_mem_flatMap]
      exact fun entry member =>
        ih entry.2 (List.mem_map_of_mem member) (((isJson_map entries).mp json).2 entry member).2
    | tuple | set | external | entity | record => simp [isJson] at json
    | _ => exact List.forall_mem_singleton.mpr ⟨json, fun _ => rfl⟩

end Value

namespace Query

/-- Whether a document can hold all values of a query and every integer in them can be written. -/
def IsReadable (q : Query) : Prop :=
  ∀ v ∈ q.toTree.outline.values, v.isJson = true ∧ v.isWritable = true

theorem isReadable_iff {q : Query} : q.IsReadable ↔
    (∀ clause ∈ q.clauses, ∀ v ∈ clause.outline.values, v.isJson = true ∧ v.isWritable = true) ∧
      ∀ entry ∈ q.parameters, (entry.1.isJson = true ∧ entry.1.isWritable = true) ∧
        entry.2.isJson = true ∧ entry.2.isWritable = true := by
  simp only [IsReadable, toTree, Tree.outline, Outline.values, Outline.fieldValues, Outline.itemValues_eq_flatMap,
    Tree.outlines_eq_map, List.flatMap_map, List.append_nil, List.forall_mem_append, List.forall_mem_flatMap,
    List.forall_mem_cons, List.not_mem_nil, false_implies, implies_true, and_true]

namespace IsReadable

variable {q n : Query} (readable : q.IsReadable)
include readable

/-- Nothing gets into a normal form that is not in the query. -/
theorem normal (returned : q.normal = .ok n) : n.IsReadable := by
  obtain ⟨clauses, parameters⟩ := isReadable_iff.mp readable
  have parts : Tree.IsOfParts _ fun v => v.isJson = true ∧ v.isWritable = true :=
    Tree.isOfParts_values (fun v both => by rwa [← v.reordered_ordered.isJson_eq, ← v.reordered_ordered.isWritable_eq])
      ⟨rfl, rfl⟩ fun _ => ⟨rfl, rfl⟩
  refine isReadable_iff.mpr ⟨forall_mem_clauses_of_normal parts returned clauses, ?_⟩
  obtain ⟨_, bound, -, sorted, rfl⟩ := normal_eq_ok.mp returned
  exact fun entry member => parameters entry ((Value.perm_of_sortEntries? sorted).mem_iff.mp member)

theorem written {statement : Statement} (made : q.statement = .ok statement) : q.written = .ok statement := by
  refine written_eq_ok_iff.mpr ⟨made, fun clause member v shown => ?_⟩
  refine ((isReadable_iff.mp readable).1 clause member v ?_).2
  rcases List.mem_append.mp shown with literal | scalar
  · exact Tree.literals_subset_values clause literal
  · exact Tree.shownScalars_subset_values clause scalar

theorem writtenText : q.toTree.writtenText = .ok q.toTree.canonicalText := by
  rw [writtenText_toTree, if_pos]
  exact List.all_eq_true.mpr fun v member => (readable v member).2

variable {copying : Copying} {levels : Nat}
  (copies : ∀ v : Value, v.isJson = true → v.nestsWithin levels = true → copying.refusal? v = none)
  (shallow : ∀ entry ∈ q.parameters, entry.2.nestsWithin levels = true)

include copies shallow in
theorem isCopyable : q.IsCopyable copying where
  literals clause member value literal leaf among := by
    have json := (isReadable_iff.mp readable).1 clause member value
      (Tree.literals_subset_values clause literal)
    obtain ⟨leafJson, leafShallow⟩ := Value.isJson_of_mem_leaves json.1 leaf among
    exact copies leaf leafJson (leafShallow levels)
  parameters entry member :=
    copies entry.2 ((isReadable_iff.mp readable).2 entry member).2.1 (shallow entry member)

theorem copied_eq : q.copied copying = q := by
  obtain ⟨clauses, parameters⟩ := isReadable_iff.mp readable
  have sameClauses : q.clauses.map (Tree.mapLiterals (Value.copiedLiteral copying.arrange)) = q.clauses := by
    refine (List.map_congr_left fun clause member => ?_).trans (List.map_id' _)
    exact Tree.mapLiterals_eq_self clause fun value literal => Value.copiedLiteral_eq_self copying
      (Value.hasSmallSets_of_isJson (clauses clause member value (Tree.literals_subset_values clause literal)).1)
  have sameParameters : (q.parameters.map fun entry => (entry.1, entry.2.copied copying.arrange)) =
      q.parameters := by
    refine (List.map_congr_left fun entry member => ?_).trans (List.map_id' _)
    rw [Value.copied_eq_self copying _ (Value.hasSmallSets_of_isJson (parameters entry member).2.1)]
  rw [copied, replaced, sameClauses, sameParameters]

include copies shallow in
/-- The normal form of such a query is a copy of itself. -/
theorem normalCopy (returned : q.normal = .ok n) : q.normalCopy copying = .ok n := by
  obtain ⟨_, bound, -, sorted, rfl⟩ := normal_eq_ok.mp returned
  have normal := readable.normal returned
  exact normalCopy_eq_ok_iff.mpr ⟨_, returned, normal.isCopyable copies fun entry member =>
    shallow entry ((Value.perm_of_sortEntries? sorted).mem_iff.mp member), normal.copied_eq⟩

end IsReadable

/-- Everything that is made of a query that can be stored: its normal form, the texts of both, its
canonical text and its digest. -/
theorem exists_results {q : Query} (storable : q.toTree.storable) (readable : q.IsReadable)
    {copying : Copying} {levels : Nat}
    (copies : ∀ v : Value, v.isJson = true → v.nestsWithin levels = true → copying.refusal? v = none)
    (shallow : ∀ entry ∈ q.parameters, entry.2.nestsWithin levels = true) :
    ∃ normal statement normalStatement text digest,
      q.normalCopy copying = .ok normal ∧ q.written = .ok statement ∧ normal.written = .ok normalStatement ∧
        q.toTree.writtenText = .ok text ∧ q.writtenHash copying = .ok digest := by
  have formed := Tree.wellFormed_of_storable storable
  have returned := normal_eq formed
  have normalReadable := readable.normal returned
  have copy := readable.normalCopy copies shallow returned
  obtain ⟨text, written⟩ := exists_statement formed
  obtain ⟨normalText, normalWritten⟩ :=
    exists_statement (q := q.normalForm) (Tree.wellFormed_normalForm q.toTree formed).1
  have hashed : q.writtenHash copying = .ok (digest q.normalForm.toTree.canonicalText) := by
    rw [writtenHash, copy]
    exact bind_eq_ok_iff.mpr ⟨_, rfl, bind_eq_ok_iff.mpr ⟨_, normalReadable.writtenText, rfl⟩⟩
  exact ⟨q.normalForm, _, _, _, _, copy, readable.written written, normalReadable.written normalWritten,
    readable.writtenText, hashed⟩

end Query

end GraphQuery
