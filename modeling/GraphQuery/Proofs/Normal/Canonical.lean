import GraphQuery.Proofs.Normal.Form
import GraphQuery.Proofs.Query.Text
import GraphQuery.Query.Digest

/-! # Queries with one normal form

Some things in a query may be rearranged freely: the operands of `AND` and of `OR` and their
grouping, double negations, labels, properties, the entries of literal maps and parameters, clauses
of different classes and assignments to different targets. Well-formed queries that come from each
other in this way, at any depth and in any number of steps, have the same normal form.
-/

namespace GraphQuery

namespace Tree

/-- What may be rearranged in one place of a tree. -/
inductive Rearranged : Tree → Tree → Prop where
  | commute {op : String} (left right : Tree) : op = "AND" ∨ op = "OR" →
    Rearranged (.binary op left right) (.binary op right left)
  | regroup {op : String} (first second third : Tree) : op = "AND" ∨ op = "OR" →
    Rearranged (.binary op (.binary op first second) third) (.binary op first (.binary op second third))
  | doubleNegation {t : Tree} : t.isExpression = true →
    Rearranged (.unary "NOT" (.unary "NOT" t)) t
  | literal {v w : Value} : v.Reordered w → Rearranged (.literal v) (.literal w)
  | labels (name : String) (properties : Option (List (String × Tree))) {labels others : List String} :
    labels.Perm others → Rearranged (.node name labels properties) (.node name others properties)
  | nodeProperties (name : String) (labels : List String) {entries others : List (String × Tree)} :
    entries.Perm others → Rearranged (.node name labels (some entries)) (.node name labels (some others))
  | relationshipProperties (direction : String) (type name : Option String)
      {entries others : List (String × Tree)} : entries.Perm others →
    Rearranged (.relationship direction type name (some entries))
      (.relationship direction type name (some others))
  | assignments {assignments others : List Tree} : assignments.Perm others →
    (∀ place, assignments.filter (fun t => decide (t.target = place)) =
      others.filter fun t => decide (t.target = place)) →
    Rearranged (.setClause assignments) (.setClause others)
  | clauses (parameters : List (Value × Value)) {clauses others : List Tree} : clauses.Perm others →
    (∀ rank, clauses.filter (fun t => decide (t.rank? = rank)) =
      others.filter fun t => decide (t.rank? = rank)) →
    Rearranged (.query clauses parameters) (.query others parameters)
  | parameters (clauses : List Tree) {entries others : List (Value × Value)} : entries.Perm others →
    Rearranged (.query clauses entries) (.query clauses others)

theorem Rearranged.role_eq {t other : Tree} (same : Rearranged t other) : t.role = other.role := by
  cases same with
  | doubleNegation expression =>
    rw [isExpression_eq_role, decide_eq_true_eq] at expression
    exact expression.symm
  | _ => rfl

private theorem allWellFormed_of_perm {items others : List Tree} (perm : items.Perm others) :
    allWellFormed items = allWellFormed others := by
  rw [allWellFormed_eq_all, allWellFormed_eq_all, perm.all_eq]

theorem Rearranged.wellFormed_eq {t other : Tree} (same : Rearranged t other) :
    t.wellFormed = other.wellFormed := by
  cases same with
  | commute left right which =>
    rw [Bool.eq_iff_iff]
    simp only [wellFormed, Bool.and_eq_true]
    tauto
  | regroup first second third which =>
    rw [Bool.eq_iff_iff]
    simp only [wellFormed, isExpression, Bool.and_eq_true]
    tauto
  | doubleNegation expression =>
    have known : (unaryLevel? "NOT").isSome = true := rfl
    have inner (t : Tree) : (Tree.unary "NOT" t).isExpression = true := rfl
    rw [wellFormed, wellFormed, known, inner, expression]
    rfl
  | literal same => exact same.isJson_eq
  | labels => rfl
  | nodeProperties name labels perm => exact propertiesWellFormed_of_perm perm
  | relationshipProperties direction type name perm =>
    rw [wellFormed, wellFormed, propertiesWellFormed_of_perm perm]
  | assignments perm _ => rw [wellFormed, wellFormed, perm.all_eq, allWellFormed_of_perm perm]
  | clauses parameters perm _ => rw [wellFormed, wellFormed, perm.all_eq, allWellFormed_of_perm perm]
  | parameters clauses perm => rw [wellFormed, wellFormed, areParameters_of_perm perm]

/-! ## One step -/

private theorem sortByText_canonicalText_eq {items others : List Tree}
    (ordered : ∀ item ∈ items, item.IsOrdered) (perm : items.Perm others) :
    sortByText canonicalText items = sortByText canonicalText others := by
  rw [sortByText_eq_sortByKey, sortByText_eq_sortByKey]
  exact sortByKey_eq_of_perm
    (fun a memberA b memberB => (ordered a memberA).eq_of_canonicalText (ordered b memberB)) perm

private theorem isOrdered_operands {op : String} {t : Tree} (ordered : t.IsOrdered) :
    ∀ item ∈ operands op t, item.IsOrdered :=
  forall_mem_operands (fun left right both => by cases both with | binary _ a b => exact ⟨a, b⟩) ordered

private theorem applyBinary_comm {op : String} (commutes : isCommutative op = true) {left right : Tree}
    (ofLeft : left.IsOrdered) (ofRight : right.IsOrdered) :
    applyBinary op left right = applyBinary op right left := by
  rw [applyBinary_of_commutative commutes, applyBinary_of_commutative commutes, sortedOperands,
    sortedOperands, sortByText_canonicalText_eq _ List.perm_append_comm]
  exact List.forall_mem_append.mpr ⟨isOrdered_operands ofLeft, isOrdered_operands ofRight⟩

private theorem applyBinary_assoc {op : String} (commutes : isCommutative op = true)
    {first second third : Tree} (ofFirst : first.IsOrdered) (ofSecond : second.IsOrdered)
    (ofThird : third.IsOrdered) :
    applyBinary op (applyBinary op first second) third =
      applyBinary op first (applyBinary op second third) := by
  have left := (sortedOperands_perm op first second).append_right (operands op third)
  have right := (sortedOperands_perm op second third).append_left (operands op first)
  have ordered : ∀ item ∈ sortedOperands op first second ++ operands op third, item.IsOrdered := by
    intro item member
    rw [left.mem_iff, List.mem_append, List.mem_append] at member
    rcases member with (member | member) | member
    · exact isOrdered_operands ofFirst item member
    · exact isOrdered_operands ofSecond item member
    · exact isOrdered_operands ofThird item member
  calc applyBinary op (applyBinary op first second) third
      = chain op (sortByText canonicalText (sortedOperands op first second ++ operands op third)) := by
        rw [applyBinary_of_commutative commutes, sortedOperands, operands_applyBinary commutes]
    _ = chain op (sortByText canonicalText (operands op first ++ sortedOperands op second third)) := by
        rw [sortByText_canonicalText_eq ordered (left.trans (List.append_assoc .. ▸ right.symm))]
    _ = chain op (sortByText canonicalText
          (operands op first ++ operands op (applyBinary op second third))) := by
        rw [operands_applyBinary commutes]
    _ = applyBinary op first (applyBinary op second third) :=
        (applyBinary_of_commutative commutes first _).symm

private theorem applyUnary_of_ne {op : String} {t : Tree} (other : ∀ operand, t ≠ .unary "NOT" operand) :
    applyUnary op t = .unary op t := by
  fun_cases applyUnary op t with
  | case1 inner operand both =>
    obtain ⟨-, rfl⟩ : op = "NOT" ∧ inner = "NOT" := by simpa using both
    exact absurd rfl (other operand)
  | case2 => rfl
  | case3 => rfl

private theorem applyUnary_not_not {t : Tree}
    (single : ∀ operand, t ≠ .unary "NOT" (.unary "NOT" operand)) :
    applyUnary "NOT" (applyUnary "NOT" t) = t := by
  have cancels (operand : Tree) : applyUnary "NOT" (.unary "NOT" operand) = operand := rfl
  by_cases negation : ∃ operand, t = .unary "NOT" operand
  · obtain ⟨operand, rfl⟩ := negation
    rw [cancels, applyUnary_of_ne fun inner same => single inner (by rw [same])]
  · rw [applyUnary_of_ne fun operand same => negation ⟨operand, same⟩, cancels]

private theorem propertiesForm_of_perm {entries others : List (String × Tree)}
    (perm : entries.Perm others) (distinct : (entries.map Prod.fst).Nodup) :
    propertiesForm (some entries) = propertiesForm (some others) := by
  have names : ((entryForms entries).map Prod.fst).Nodup := by
    rw [entryForms_eq_map, List.map_map]
    exact distinct
  rw [propertiesForm, propertiesForm, sortByText_eq_sortByKey, sortByText_eq_sortByKey]
  refine congrArg some (sortByKey_eq_of_perm (List.inj_on_of_nodup_map names) ?_)
  rw [entryForms_eq_map, entryForms_eq_map]
  exact perm.map _

private theorem filter_normalForms {Label : Type} [DecidableEq Label] {label : Tree → Label}
    {items : List Tree} (kept : ∀ item ∈ items, label item.normalForm = label item) (value : Label) :
    (normalForms items).filter (fun t => decide (label t = value)) =
      normalForms (items.filter fun t => decide (label t = value)) := by
  rw [normalForms_eq_map, normalForms_eq_map, List.filter_map]
  congr 1
  apply List.filter_congr
  intro item member
  rw [Function.comp_apply, kept item member]

private theorem sortByText_target_eq {assignments others : List Tree}
    (kept : ∀ t ∈ assignments, t.isAssignment = true) (keptOthers : ∀ t ∈ others, t.isAssignment = true)
    (order : ∀ place, assignments.filter (fun t => decide (t.target = place)) =
      others.filter fun t => decide (t.target = place)) :
    sortByText target (normalForms assignments) = sortByText target (normalForms others) := by
  have target_normalForm {t : Tree} (assignment : t.isAssignment = true) :
      t.normalForm.target = t.target := by
    cases t with
    | assignment subject key value => rfl
    | _ => simp [isAssignment] at assignment
  rw [sortByText_eq_sortByKey, sortByText_eq_sortByKey]
  apply sortByKey_eq_of_ofKey
  intro place
  rw [ofKey, ofKey, filter_normalForms fun t member => target_normalForm (kept t member),
    filter_normalForms fun t member => target_normalForm (keptOthers t member), order]

private theorem rank?_ne_zero (t : Tree) : t.rank? ≠ some 0 := by
  cases t <;> simp [rank?]

private theorem sortClauses_eq {clauses others : List Tree}
    (kept : ∀ t ∈ clauses, t.normalForm.rank? = t.rank?)
    (keptOthers : ∀ t ∈ others, t.normalForm.rank? = t.rank?)
    (order : ∀ rank, clauses.filter (fun t => decide (t.rank? = rank)) =
      others.filter fun t => decide (t.rank? = rank)) :
    sortClauses (normalForms clauses) = sortClauses (normalForms others) := by
  -- a rank is never zero, so that the default tells what is no clause apart
  have place (t : Tree) (value : Nat) :
      t.rank?.getD 0 = value ↔ t.rank? = if value = 0 then none else some value := by
    have positive := rank?_ne_zero t
    revert positive
    cases t.rank? with
    | none => by_cases zero : value = 0 <;> simp [zero, eq_comm]
    | some rank =>
      intro positive
      by_cases zero : value = 0
      · simpa [zero] using positive
      · simp [zero]
  refine sortByKey_eq_of_ofKey fun value => ?_
  simp only [ofKey, place]
  rw [filter_normalForms kept, filter_normalForms keptOthers, order]

private theorem Rearranged.normalForm_eq {t other : Tree} (same : Rearranged t other)
    (formed : t.wellFormed = true) : t.normalForm = other.normalForm := by
  cases same with
  | @commute op left right which =>
    cases formedExpression_iff.mpr ⟨rfl, formed⟩ with
    | binary _ ofLeft ofRight =>
      exact applyBinary_comm (by simpa [isCommutative] using which) ofLeft.isOrdered ofRight.isOrdered
  | @regroup op first second third which =>
    cases formedExpression_iff.mpr ⟨rfl, formed⟩ with
    | binary _ inner ofThird =>
      cases inner with
      | binary _ ofFirst ofSecond =>
        exact applyBinary_assoc (by simpa [isCommutative] using which) ofFirst.isOrdered
          ofSecond.isOrdered ofThird.isOrdered
  | doubleNegation expression =>
    simp only [wellFormed, Bool.and_eq_true] at formed
    exact applyUnary_not_not
      (formedExpression_iff.mpr ⟨expression, formed.2.2⟩).normalForm_ne_double_negation
  | literal same => rw [normalForm, normalForm, same.ordered_eq formed]
  | @labels name properties labels others perm =>
    have sorted : sortByKey id labels = sortByKey id others :=
      sortByKey_eq_of_perm (fun _ _ _ _ same => same) perm
    rw [normalForm, normalForm, sortByText_eq_sortByKey, sortByText_eq_sortByKey, sorted]
  | nodeProperties name labels perm =>
    rw [normalForm, normalForm, propertiesForm_of_perm perm (formedExpression_of_property formed).1]
  | relationshipProperties direction type name perm =>
    simp only [wellFormed, Bool.and_eq_true] at formed
    rw [normalForm, normalForm, propertiesForm_of_perm perm (formedExpression_of_property formed.2).1]
  | assignments perm order =>
    simp only [wellFormed, Bool.and_eq_true, List.all_eq_true] at formed
    rw [normalForm, normalForm, sortByText_target_eq formed.1
      (fun t member => formed.1 t (perm.mem_iff.mpr member)) order]
  | @clauses parameters clauses others perm order =>
    simp only [wellFormed, allWellFormed_eq_all, Bool.and_eq_true, List.all_eq_true] at formed
    have kept : ∀ t ∈ clauses, t.normalForm.rank? = t.rank? := fun t member =>
      rank?_eq_of_role (wellFormed_normalForm t (formed.2 t member)).2
    rw [normalForm, normalForm,
      sortClauses_eq kept (fun t member => kept t (perm.mem_iff.mpr member)) order]
  | parameters clauses perm =>
    simp only [wellFormed, Bool.and_eq_true] at formed
    obtain ⟨texts, distinct⟩ := areParameters_iff.mp formed.1.2
    rw [normalForm, normalForm, Value.sortEntries?_of_texts texts,
      Value.sortEntries?_of_texts fun entry member => texts entry (perm.mem_iff.mpr member),
      sortByKey_eq_of_perm (List.inj_on_of_nodup_map distinct) perm]
    rfl

/-! ## Any number of steps at any depth -/

private theorem normalForm_plug_eq (frame : Frame) {t other : Tree}
    (same : t.normalForm = other.normalForm) :
    (frame.plug t).normalForm = (frame.plug other).normalForm := by
  cases frame <;>
    simp only [Frame.plug, normalForm, normalForms_eq_map, propertiesForm, entryForms_eq_map,
      List.map_append, List.map_cons, same]

/-- Rearranging a well-formed tree keeps its normal form. -/
theorem normalForm_eq_of_congruent {t other : Tree} (same : Congruent Rearranged t other)
    (formed : t.wellFormed = true) : t.normalForm = other.normalForm := by
  have keeps {t other : Tree} (same : Congruent Rearranged t other) : t.wellFormed = other.wellFormed :=
    same.wellFormed_eq (fun _ _ => Rearranged.role_eq) fun _ _ => Rearranged.wellFormed_eq
  induction same with
  | rule follows => exact follows.normalForm_eq formed
  | refl t => rfl
  | symm back ih => exact (ih (keeps back ▸ formed)).symm
  | trans first _ ihFirst ihSecond => exact (ihFirst formed).trans (ihSecond (keeps first ▸ formed))
  | inside frame _ ih => exact normalForm_plug_eq frame (ih (wellFormed_of_plug formed))

end Tree

namespace Query

/-- A well-formed query has a normal form, which has a text and a digest. -/
theorem exists_build_hash {q : Query} (formed : q.toTree.wellFormed = true) : ∃ statement digest,
    q.normal = .ok q.normalForm ∧ q.build = .ok statement ∧ q.hash = .ok digest := by
  have normal := normal_eq formed
  obtain ⟨text, written⟩ :=
    exists_statement (q := q.normalForm) (Tree.wellFormed_normalForm q.toTree formed).1
  exact ⟨_, _, normal, by rw [build, normal]; exact written, by rw [hash, normal]; rfl⟩

/-- A well-formed query and all queries that rearranging makes of it have one normal form, and so
one text with one list of parameters and one digest. -/
theorem normal_eq_of_congruent {q other : Query} (formed : q.toTree.wellFormed = true)
    (same : Tree.Congruent Tree.Rearranged q.toTree other.toTree) :
    ∃ normal statement digest,
      (q.normal = .ok normal ∧ other.normal = .ok normal) ∧
      (q.build = .ok statement ∧ other.build = .ok statement) ∧
      q.hash = .ok digest ∧ other.hash = .ok digest := by
  have otherFormed : other.toTree.wellFormed = true := by
    rw [← same.wellFormed_eq (fun _ _ => Tree.Rearranged.role_eq) fun _ _ => Tree.Rearranged.wellFormed_eq]
    exact formed
  have forms : q.normalForm = other.normalForm := by
    have trees := Tree.normalForm_eq_of_congruent same formed
    rw [← toTree_normalForm, ← toTree_normalForm] at trees
    exact Option.some.inj (congrArg ofTree? trees)
  obtain ⟨statement, digest, normal, built, hashed⟩ := exists_build_hash formed
  have otherNormal : other.normal = .ok q.normalForm := forms ▸ normal_eq otherFormed
  refine ⟨q.normalForm, statement, digest, ⟨normal, otherNormal⟩, ⟨built, ?_⟩, hashed, ?_⟩
  · rw [build, otherNormal, ← normal]
    exact built
  · rw [hash, otherNormal, ← normal]
    exact hashed

/-- A pattern behind its condition, with nothing in order. -/
def scattered : Query :=
  ⟨[.whereClause (.binary "AND" (.property "n" "x") (.unary "NOT" (.unary "NOT" (.parameter "p")))),
    .matchClause (.node "n" ["B", "A"] none) (.bool false)], [(.text "p", .bool true)]⟩

def tidy : Query :=
  ⟨[.matchClause (.node "n" ["A", "B"] none) (.bool false),
    .whereClause (.binary "AND" (.parameter "p") (.property "n" "x"))], [(.text "p", .bool true)]⟩

private theorem congruent_scattered : Tree.Congruent Tree.Rearranged scattered.toTree tidy.toTree := by
  have clauses : Tree.Rearranged scattered.toTree
      (.query scattered.clauses.reverse scattered.parameters) := by
    refine .clauses _ (List.reverse_perm _).symm fun rank => ?_
    by_cases first : some 1 = rank
    · subst first
      rfl
    · by_cases second : some 2 = rank
      · subst second
        rfl
      · simp [scattered, Tree.rank?, first, second]
  have labels : Tree.Congruent Tree.Rearranged (.node "n" ["B", "A"] none) (.node "n" ["A", "B"] none) :=
    .rule (.labels "n" none (.swap "A" "B" []))
  have negation : Tree.Congruent Tree.Rearranged (.unary "NOT" (.unary "NOT" (.parameter "p")))
      (.parameter "p") := .rule (.doubleNegation rfl)
  have operands : Tree.Congruent Tree.Rearranged (.binary "AND" (.property "n" "x") (.parameter "p"))
      (.binary "AND" (.parameter "p") (.property "n" "x")) := .rule (.commute _ _ (.inl rfl))
  have condition := (negation.inside (.binaryRight "AND" (.property "n" "x"))).trans operands
  exact (Tree.Congruent.rule clauses).trans
    (((labels.inside (.matchClause (.bool false))).inside (.query [] [_] _)).trans
      ((condition.inside .whereClause).inside (.query [_] [] _)))

/-- Clauses, labels, operands and a double negation, rearranged together. -/
theorem normal_eq_of_congruent_scattered :
    scattered.toTree.wellFormed = true ∧
      Tree.Congruent Tree.Rearranged scattered.toTree tidy.toTree ∧
      ∃ normal statement digest,
        (scattered.normal = .ok normal ∧ tidy.normal = .ok normal) ∧
        (scattered.build = .ok statement ∧ tidy.build = .ok statement) ∧
        scattered.hash = .ok digest ∧ tidy.hash = .ok digest :=
  have formed : scattered.toTree.wellFormed = true := by decide +kernel
  ⟨formed, congruent_scattered, normal_eq_of_congruent formed congruent_scattered⟩

end Query

end GraphQuery
