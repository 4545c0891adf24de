import GraphQuery.Proofs.Normal.Replaced
import GraphQuery.Proofs.Syntax.Setwise
import GraphQuery.Value.HashTable

/-! # Normal forms made of copies

What a caller gets as the normal form of a query is the normal form with copies in the place of all
values, if all of them can be copied. The normal form of this is made of copies again: it has the same
clauses, labels, properties, assignments, keys and parameters in the same order, and only sets may list
their items in another one. The digest does not see this, but a text that shows a set does.
-/

namespace GraphQuery

namespace Copying

variable (copying : Copying)

/-- Whether nothing is in the way of making a literal anew. -/
def AcceptsLiteral (value : Value) : Prop :=
  ∀ leaf ∈ value.leaves, copying.refusal? leaf = none

/-- Whether a copy of the copy of a literal lists the items of its sets as the copy does. -/
def KeepsOrder (value : Value) : Prop :=
  (value.copiedLiteral copying.arrange).copiedLiteral copying.arrange = value.copiedLiteral copying.arrange

theorem keepsOrder_of_hasSmallSets {value : Value} (small : value.hasSmallSets = true) :
    copying.KeepsOrder value := by
  simp only [KeepsOrder, Value.copiedLiteral_eq_self copying small]

variable {copying}

theorem literalRefusal?_eq_none_iff {literals : List Value} :
    copying.literalRefusal? literals = none ↔ ∀ value ∈ literals, copying.AcceptsLiteral value := by
  simp [literalRefusal?, AcceptsLiteral, List.findSome?_eq_none_iff]
  grind

/-- A copy of a literal can be made anew if the literal can. -/
theorem AcceptsLiteral.copiedLiteral {value : Value} (accepted : copying.AcceptsLiteral value) :
    copying.AcceptsLiteral (value.copiedLiteral copying.arrange) := by
  rw [AcceptsLiteral, Value.leaves_copiedLiteral, List.forall_mem_map]
  exact fun leaf member => copying.refusal?_copied leaf (accepted leaf member)

theorem entry_eq_ok_iff {entry copy : Value × Value} : copying.entry entry = .ok copy ↔
    copying.refusal? entry.2 = none ∧ (entry.1, entry.2.copied copying.arrange) = copy := by
  unfold Copying.entry
  split <;> simp_all

end Copying

namespace Tree

variable {copying : Copying}

theorem copiedIn_eq_ok_iff {t copy : Tree} : t.copiedIn copying = .ok copy ↔
    (∀ value ∈ t.literals, copying.AcceptsLiteral value) ∧
      t.mapLiterals (Value.copiedLiteral copying.arrange) = copy := by
  rw [← Copying.literalRefusal?_eq_none_iff, copiedIn]
  split <;> simp_all

theorem setwiseEqual_copied (copying : Copying) (t : Tree) :
    (t.mapLiterals (Value.copiedLiteral copying.arrange)).SetwiseEqual t :=
  setwiseEqual_mapLiterals (Value.setwiseEqual_copiedLiteral copying) t

end Tree

namespace Query

/-- A query with copies in the place of its values. -/
def copied (copying : Copying) (q : Query) : Query :=
  q.replaced (Value.copiedLiteral copying.arrange) (Value.copied copying.arrange)

/-- Whether nothing is in the way of copying the values of a query. -/
structure IsCopyable (copying : Copying) (q : Query) : Prop where
  literals : ∀ clause ∈ q.clauses, ∀ value ∈ clause.literals, copying.AcceptsLiteral value
  parameters : ∀ entry ∈ q.parameters, copying.refusal? entry.2 = none

section Copied

variable {copying : Copying} {q n : Query}

theorem setwiseEqual_copied (copying : Copying) (q : Query) : (q.copied copying).SetwiseEqual q where
  clauses := List.forall₂_map_left_iff.mpr (List.forall₂_same.mpr fun t _ => t.setwiseEqual_copied copying)
  parameters := List.forall₂_map_left_iff.mpr
    (List.forall₂_same.mpr fun entry _ => ⟨rfl, entry.2.setwiseEqual_copied copying⟩)

theorem IsCopyable.copied (copyable : q.IsCopyable copying) : (q.copied copying).IsCopyable copying where
  literals := by
    refine List.forall_mem_map.mpr fun clause member => ?_
    rw [Tree.literals_mapLiterals]
    exact List.forall_mem_map.mpr fun value among =>
      (copyable.literals clause member value among).copiedLiteral
  parameters := List.forall_mem_map.mpr fun entry member =>
    copying.refusal?_copied entry.2 (copyable.parameters entry member)

/-! ## The normal form and its copy -/

theorem clauseCopy_eq_ok_iff {clause copy : Tree} : clauseCopy copying clause = .ok copy ↔
    ∃ normal, clause.normalClause = .ok normal ∧ (∀ value ∈ normal.literals, copying.AcceptsLiteral value) ∧
      normal.mapLiterals (Value.copiedLiteral copying.arrange) = copy := by
  simp only [clauseCopy, bind_eq_ok_iff, ofTree_eq_ok_iff, Tree.copiedIn_eq_ok_iff]

theorem mapM_entry_eq_ok_iff {entries copies : List (Value × Value)} :
    entries.mapM copying.entry = .ok copies ↔ (∀ entry ∈ entries, copying.refusal? entry.2 = none) ∧
      (entries.map fun entry => (entry.1, entry.2.copied copying.arrange)) = copies := by
  have kept : entries.mapM (fun entry => (.ok entry : Except Fault (Value × Value))) = .ok entries :=
    mapM_eq_ok_self fun _ _ => rfl
  have steps : ∀ entry copy, copying.entry entry = .ok copy ↔
      ∃ inner, (.ok entry : Except Fault (Value × Value)) = .ok inner ∧ copying.refusal? inner.2 = none ∧
        (inner.1, inner.2.copied copying.arrange) = copy := by
    simp [Copying.entry_eq_ok_iff]
  rw [mapM_eq_ok_iff_of_first steps, kept]
  simp

/-- The normal form made of copies is a copy of the normal form, if that can be copied. -/
theorem normalCopy_eq_ok_iff : q.normalCopy copying = .ok n ↔
    ∃ m, q.normal = .ok m ∧ m.IsCopyable copying ∧ m.copied copying = n := by
  rw [normalCopy, bind_eq_ok_iff]
  simp only [mapM_eq_ok_iff_of_first fun _ _ => clauseCopy_eq_ok_iff]
  constructor
  · rintro ⟨copies, ⟨forms, ran, accepted, rfl⟩, returned⟩
    split at returned
    · rename_i parameters sorted
      obtain ⟨copies, made, same⟩ := bind_eq_ok_iff.mp returned
      obtain ⟨accepts, rfl⟩ := mapM_entry_eq_ok_iff.mp made
      refine ⟨_, normal_eq_ok.mpr ⟨forms, parameters, ran, sorted, rfl⟩, ⟨?_, accepts⟩, ?_⟩
      · exact fun clause member => accepted clause (mem_stableSort.mp member)
      · rw [← Except.ok.inj same, Tree.sortClauses_mapLiterals]
        rfl
    · cases returned
  · rintro ⟨m, normal, copyable, rfl⟩
    obtain ⟨forms, parameters, ran, sorted, rfl⟩ := normal_eq_ok.mp normal
    refine ⟨_, ⟨forms, ran, ?_, rfl⟩, ?_⟩
    · exact fun form member => copyable.literals form (mem_stableSort.mpr member)
    · rw [sorted]
      refine bind_eq_ok_iff.mpr ⟨_, mapM_entry_eq_ok_iff.mpr ⟨copyable.parameters, rfl⟩, ?_⟩
      rw [Tree.sortClauses_mapLiterals]
      rfl

/-- A query with copies in the place of its values has a copy of the normal form as its own. -/
theorem normal_copied (copying : Copying) (returned : q.normal = .ok n) :
    (q.copied copying).normal = .ok (n.copied copying) :=
  normal_replaced (Value.ordered_copiedLiteral copying.arrange)
    (fun t => (t.setwiseEqual_copied copying).canonicalText_eq) q n returned

/-! ## Normal forms of normal forms -/

private theorem clauses_copied_copied (returned : q.normal = .ok n)
    (keeps : ∀ clause ∈ q.clauses, ∀ value ∈ clause.literals, copying.KeepsOrder value) :
    ((n.copied copying).copied copying).clauses = (n.copied copying).clauses := by
  -- the literals of the copied query stay, and its normal form is the copied normal form
  have stay : (q.copied copying).clauses.map (Tree.mapLiterals (Value.copiedLiteral copying.arrange)) =
      (q.copied copying).clauses := by
    refine (List.map_congr_left (List.forall_mem_map.mpr fun clause member => ?_)).trans (List.map_id' _)
    apply Tree.mapLiterals_eq_self
    rw [Tree.literals_mapLiterals]
    exact List.forall_mem_map.mpr (keeps clause member)
  have once := normal_copied copying returned
  have twice := normal_copied copying once
  obtain ⟨forms, _, ran, -, same⟩ := normal_eq_ok.mp once
  obtain ⟨formsAgain, _, ranAgain, -, sameAgain⟩ := normal_eq_ok.mp twice
  have clauses : ((q.copied copying).copied copying).clauses = (q.copied copying).clauses := stay
  rw [clauses, ran] at ranAgain
  rw [← sameAgain, ← same, Except.ok.inj ranAgain]

theorem written_eq_ok_iff {statement : Statement} : q.written = .ok statement ↔
    q.statement = .ok statement ∧
      ∀ clause ∈ q.clauses, ∀ v ∈ clause.literals ++ clause.shownScalars, v.isWritable = true := by
  rw [written, bind_eq_ok_iff]
  simp only [ofTree_eq_ok_iff, ifWritable_eq_ok_iff, List.forall_mem_flatMap]
  constructor
  · rintro ⟨_, made, writable, rfl⟩
    exact ⟨made, writable⟩
  · rintro ⟨made, writable⟩
    exact ⟨_, made, writable, rfl⟩

private theorem endAlike_written {other : Query} (clauses : q.clauses = other.clauses)
    (parameters : SetwiseEqualEntries q.parameters other.parameters) :
    EndAlike Statement.SetwiseEqual q.written other.written := by
  have alike : EndAlike Statement.SetwiseEqual (ofTree q.statement) (ofTree other.statement) := by
    rw [statement, statement, clauses]
    cases other.clauses.mapM Tree.clauseChars with
    | ok pieces => exact .ok ⟨rfl, parameters⟩
    | error fault => exact .error _
  rw [written, written, clauses]
  refine alike.bind fun statement otherStatement same => ?_
  unfold ifWritable
  split
  · exact .ok same
  · exact .error _

/-- The normal form of what is returned as a normal form is returned as well, and equal to it up to the
order in which sets list their items. It has the digest of the query, and it is built with the text of the
query unless copies of copies list sets in another order. -/
theorem normalCopy_normalCopy (returned : q.normalCopy copying = .ok n) :
    ∃ again, n.normalCopy copying = .ok again ∧ again.SetwiseEqual n ∧
      n.writtenHash copying = q.writtenHash copying ∧
      ((∀ clause ∈ q.clauses, ∀ value ∈ clause.literals, copying.KeepsOrder value) →
        EndAlike Statement.SetwiseEqual (n.writtenBuild copying) (q.writtenBuild copying)) := by
  obtain ⟨m, normal, copyable, rfl⟩ := normalCopy_eq_ok_iff.mp returned
  have again : (m.copied copying).normalCopy copying = .ok ((m.copied copying).copied copying) :=
    normalCopy_eq_ok_iff.mpr ⟨_, normal_copied copying (normal_normal normal), copyable.copied, rfl⟩
  have equal := setwiseEqual_copied copying (m.copied copying)
  refine ⟨_, again, equal, ?_, fun keeps => ?_⟩
  · rw [writtenHash, writtenHash, again, returned]
    simp only [bind, Except.bind, equal.writtenText_eq]
  · rw [writtenBuild, writtenBuild, again, returned]
    exact endAlike_written (clauses_copied_copied normal keeps) equal.parameters

end Copied

/-- A query in which nothing is in its place, with sets in a literal and in a parameter. -/
def tangled : Query :=
  ⟨[.returnClause [.expressionItem (.literal (.map [(.int 2, .set false [.int 7]), (.int 10, .null)])) .null,
      .expressionItem (.literal (.tuple [.set true [.int 1, .int 2]])) .null],
    .whereClause (.binary "OR" (.unary "NOT" (.unary "NOT" (.parameter "b"))) (.parameter "a")),
    .matchClause (.node "n" ["B", "A"] none) (.bool false)],
   [(.text "b", .set false [.int 7, .int 15]), (.text "a", .bool false)]⟩

/-- The normal form of `tangled`, made of copies. The text of the key 10 comes before that of the key 2,
and the number 15 before the number 7. -/
def untangled : Query :=
  ⟨[.matchClause (.node "n" ["A", "B"] none) (.bool false),
    .whereClause (.binary "OR" (.parameter "a") (.parameter "b")),
    .returnClause [.expressionItem (.literal (.map [(.int 10, .null), (.int 2, .set false [.int 7])])) .null,
      .expressionItem (.literal (.tuple [.set true [.int 1, .int 2]])) .null]],
   [(.text "a", .bool false), (.text "b", .set false [.int 15, .int 7])]⟩

theorem normalCopy_normalCopy_tangled :
    tangled.normalCopy (.standard 100) = .ok untangled ∧
      (∀ clause ∈ tangled.clauses, ∀ value ∈ clause.literals, (Copying.standard 100).KeepsOrder value) ∧
      ∃ again, untangled.normalCopy (.standard 100) = .ok again ∧ again.SetwiseEqual untangled ∧
        untangled.writtenHash (.standard 100) = tangled.writtenHash (.standard 100) ∧
        EndAlike Statement.SetwiseEqual (untangled.writtenBuild (.standard 100))
          (tangled.writtenBuild (.standard 100)) := by
  have returned : tangled.normalCopy (.standard 100) = .ok untangled := by rfl
  have keeps : ∀ clause ∈ tangled.clauses, ∀ value ∈ clause.literals,
      (Copying.standard 100).KeepsOrder value := by
    have literals : tangled.clauses.flatMap Tree.literals =
        [.map [(.int 2, .set false [.int 7]), (.int 10, .null)],
          .tuple [.set true [.int 1, .int 2]]] := by rfl
    rw [← List.forall_mem_flatMap, literals, List.forall_mem_cons, List.forall_mem_singleton]
    exact ⟨(Copying.standard 100).keepsOrder_of_hasSmallSets (by rfl), by rfl⟩
  obtain ⟨again, made, equal, hash, build⟩ := normalCopy_normalCopy returned
  exact ⟨returned, keeps, again, made, equal, hash, build keeps⟩

/-- A set of two numbers that want one place of its table. -/
def flipping : Query :=
  ⟨[.returnClause [.expressionItem (.literal (.set false [.int 15, .int 7])) .null]], []⟩

/-- The copy of a set and the copy of the copy list their items in different orders, and the text of a
literal shows it. -/
theorem not_build_eq_flipping :
    ∃ n, flipping.normalCopy (.standard 100) = .ok n ∧
      flipping.writtenBuild (.standard 100) = .ok ⟨"RETURN \"\x7b7, 15\x7d\"", []⟩ ∧
      n.writtenBuild (.standard 100) = .ok ⟨"RETURN \"\x7b15, 7\x7d\"", []⟩ := by
  let once : Query := ⟨[.returnClause [.expressionItem (.literal (.set false [.int 7, .int 15])) .null]], []⟩
  have ofFlipping : flipping.normalCopy (.standard 100) = .ok once := by rfl
  have ofOnce : once.normalCopy (.standard 100) = .ok flipping := by rfl
  refine ⟨once, ofFlipping, bind_eq_ok_iff.mpr ⟨once, ofFlipping, ?_⟩,
    bind_eq_ok_iff.mpr ⟨flipping, ofOnce, ?_⟩⟩
  · exact written_eq_ok_iff.mpr ⟨by rfl, by decide +kernel⟩
  · exact written_eq_ok_iff.mpr ⟨by rfl, by decide +kernel⟩

end Query

end GraphQuery
