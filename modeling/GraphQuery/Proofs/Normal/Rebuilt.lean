import GraphQuery.Proofs.Normal.Fixpoint

/-! # What a normal query is made of

A normal query is made anew from every part of the query. Labels, properties, assignments and clauses
change places on the way; everything else stays where it is, and every field keeps its value. Each
relation below says this of one kind of tree, down to the expressions, which are replaced by their
normal forms.
-/

namespace GraphQuery

namespace Tree

/-! ## Patterns -/

/-- Properties keep their names, each with the normal form of its expression, and are sorted by them. -/
inductive PropertiesRebuilt : Option (List (String × Tree)) → Option (List (String × Tree)) → Prop where
  | absent : PropertiesRebuilt none none
  | present {entries forms sorted : List (String × Tree)} :
    List.Forall₂ (fun entry form => entry.1 = form.1 ∧ entry.2.normalExpression = .ok form.2) entries forms →
    IsStableSort Prod.fst forms sorted → PropertiesRebuilt (some entries) (some sorted)

/-- Nodes have their labels sorted; the direction, the type and the name of a relationship stay. -/
inductive ElementRebuilt : Tree → Tree → Prop where
  | node (name : String) {labels sorted : List String} {properties forms : Option (List (String × Tree))} :
    IsStableSort id labels sorted → PropertiesRebuilt properties forms →
    ElementRebuilt (.node name labels properties) (.node name sorted forms)
  | relationship (direction : String) (type name : Option String)
    {properties forms : Option (List (String × Tree))} : PropertiesRebuilt properties forms →
    ElementRebuilt (.relationship direction type name properties) (.relationship direction type name forms)

/-- The elements of a path keep their places. -/
inductive PatternRebuilt : Tree → Tree → Prop where
  | element {t n : Tree} : ElementRebuilt t n → PatternRebuilt t n
  | path {elements forms : List Tree} : List.Forall₂ ElementRebuilt elements forms →
    PatternRebuilt (.path elements) (.path forms)

theorem propertiesRebuilt_of_normalProperties {properties forms : Option (List (String × Tree))}
    (returned : normalProperties properties = .ok forms) : PropertiesRebuilt properties forms := by
  cases properties with
  | none =>
    obtain rfl := Except.ok.inj returned
    exact .absent
  | some entries =>
    obtain ⟨sorted, ran, rfl⟩ := wrapped_eq_ok_iff.mp returned
    obtain ⟨forms, made, sorts⟩ := exists_isStableSort_of_normalProperties ran
    exact .present ((mapM_eq_ok_iff.mp made).imp fun _ _ => normalProperty_eq_ok) sorts

theorem elementRebuilt_of_normalElement {t n : Tree} (returned : t.normalElement = .ok n) :
    ElementRebuilt t n := by
  cases t with
  | node name labels properties =>
    obtain ⟨forms, ran, rfl⟩ := wrapped_eq_ok_iff.mp returned
    rw [sortByText_eq_sortByKey]
    exact .node name (isStableSort_sortByKey labels) (propertiesRebuilt_of_normalProperties ran)
  | relationship direction type name properties =>
    obtain ⟨forms, ran, rfl⟩ := wrapped_eq_ok_iff.mp returned
    exact .relationship direction type name (propertiesRebuilt_of_normalProperties ran)
  | _ => cases returned

theorem patternRebuilt_of_normalPattern {t n : Tree} (returned : t.normalPattern = .ok n) :
    PatternRebuilt t n := by
  cases t with
  | path elements =>
    obtain ⟨forms, ran, rfl⟩ := wrapped_eq_ok_iff.mp returned
    exact .path ((mapM_eq_ok_iff.mp ran).imp fun _ _ => elementRebuilt_of_normalElement)
  | node | relationship => exact .element (elementRebuilt_of_normalElement returned)
  | _ => cases returned

/-! ## Items -/

/-- Items of a `RETURN` or `WITH` clause keep their names and what they are renamed to. -/
inductive ReturnItemRebuilt : Tree → Tree → Prop where
  | variableItem (name : String) (renamed : Value) :
    ReturnItemRebuilt (.variableItem name renamed) (.variableItem name renamed)
  | expressionItem {expr form : Tree} (renamed : Value) : expr.normalExpression = .ok form →
    ReturnItemRebuilt (.expressionItem expr renamed) (.expressionItem form renamed)

/-- Assignments keep what they assign to. -/
inductive AssignmentRebuilt : Tree → Tree → Prop where
  | assignment (subject key : String) {value form : Tree} : value.normalExpression = .ok form →
    AssignmentRebuilt (.assignment subject key value) (.assignment subject key form)

/-- Items of an `ORDER BY` clause keep their directions. -/
inductive OrderItemRebuilt : Tree → Tree → Prop where
  | orderItem {expr form : Tree} (direction : String) : expr.normalExpression = .ok form →
    OrderItemRebuilt (.orderItem expr direction) (.orderItem form direction)

theorem returnItemRebuilt_of_normalReturnItem {t n : Tree} (returned : t.normalReturnItem = .ok n) :
    ReturnItemRebuilt t n := by
  cases t with
  | variableItem name renamed =>
    obtain rfl := Except.ok.inj returned
    exact .variableItem name renamed
  | expressionItem expr renamed =>
    obtain ⟨form, ran, rfl⟩ := wrapped_eq_ok_iff.mp returned
    exact .expressionItem renamed ran
  | _ => cases returned

theorem assignmentRebuilt_of_normalAssignment {t n : Tree} (returned : t.normalAssignment = .ok n) :
    AssignmentRebuilt t n := by
  cases t with
  | assignment subject key value =>
    obtain ⟨form, ran, rfl⟩ := wrapped_eq_ok_iff.mp returned
    exact .assignment subject key ran
  | _ => cases returned

theorem orderItemRebuilt_of_normalOrderItem {t n : Tree} (returned : t.normalOrderItem = .ok n) :
    OrderItemRebuilt t n := by
  cases t with
  | orderItem expr direction =>
    obtain ⟨form, ran, rfl⟩ := wrapped_eq_ok_iff.mp returned
    exact .orderItem direction ran
  | expressionItem expr renamed =>
    -- the expression may have a normal form, but the direction is missed
    obtain ⟨_, -, fails⟩ := bind_eq_ok_iff.mp returned
    cases fails
  | _ => cases returned

/-! ## Clauses -/

/-- Only the assignments of a clause change places. -/
inductive ClauseRebuilt : Tree → Tree → Prop where
  | matchClause {pattern form : Tree} (optional : Value) : PatternRebuilt pattern form →
    ClauseRebuilt (.matchClause pattern optional) (.matchClause form optional)
  | whereClause {condition form : Tree} : condition.normalExpression = .ok form →
    ClauseRebuilt (.whereClause condition) (.whereClause form)
  | createClause {pattern form : Tree} : PatternRebuilt pattern form →
    ClauseRebuilt (.createClause pattern) (.createClause form)
  | deleteClause (names : List String) (detach : Value) :
    ClauseRebuilt (.deleteClause names detach) (.deleteClause names detach)
  | setClause {assignments forms sorted : List Tree} : List.Forall₂ AssignmentRebuilt assignments forms →
    IsStableSort target forms sorted → ClauseRebuilt (.setClause assignments) (.setClause sorted)
  | withClause {items forms : List Tree} : List.Forall₂ ReturnItemRebuilt items forms →
    ClauseRebuilt (.withClause items) (.withClause forms)
  | returnClause {items forms : List Tree} : List.Forall₂ ReturnItemRebuilt items forms →
    ClauseRebuilt (.returnClause items) (.returnClause forms)
  | orderByClause {items forms : List Tree} : List.Forall₂ OrderItemRebuilt items forms →
    ClauseRebuilt (.orderByClause items) (.orderByClause forms)
  | skipClause (count : Value) : ClauseRebuilt (.skipClause count) (.skipClause count)
  | limitClause (count : Value) : ClauseRebuilt (.limitClause count) (.limitClause count)

theorem clauseRebuilt_of_normalClause {t n : Tree} (returned : t.normalClause = .ok n) :
    ClauseRebuilt t n := by
  cases t with
  | matchClause pattern optional =>
    obtain ⟨form, ran, rfl⟩ := wrapped_eq_ok_iff.mp returned
    exact .matchClause optional (patternRebuilt_of_normalPattern ran)
  | whereClause condition =>
    obtain ⟨form, ran, rfl⟩ := wrapped_eq_ok_iff.mp returned
    exact .whereClause ran
  | createClause pattern =>
    obtain ⟨form, ran, rfl⟩ := wrapped_eq_ok_iff.mp returned
    exact .createClause (patternRebuilt_of_normalPattern ran)
  | deleteClause names detach =>
    obtain rfl := Except.ok.inj returned
    exact .deleteClause names detach
  | setClause assignments =>
    obtain ⟨forms, ran, rfl⟩ := wrapped_eq_ok_iff.mp returned
    rw [sortByText_eq_sortByKey]
    exact .setClause ((mapM_eq_ok_iff.mp ran).imp fun _ _ => assignmentRebuilt_of_normalAssignment)
      (isStableSort_sortByKey forms)
  | withClause items =>
    obtain ⟨forms, ran, rfl⟩ := wrapped_eq_ok_iff.mp returned
    exact .withClause ((mapM_eq_ok_iff.mp ran).imp fun _ _ => returnItemRebuilt_of_normalReturnItem)
  | returnClause items =>
    obtain ⟨forms, ran, rfl⟩ := wrapped_eq_ok_iff.mp returned
    exact .returnClause ((mapM_eq_ok_iff.mp ran).imp fun _ _ => returnItemRebuilt_of_normalReturnItem)
  | orderByClause items =>
    obtain ⟨forms, ran, rfl⟩ := wrapped_eq_ok_iff.mp returned
    exact .orderByClause ((mapM_eq_ok_iff.mp ran).imp fun _ _ => orderItemRebuilt_of_normalOrderItem)
  | skipClause count =>
    obtain rfl := Except.ok.inj returned
    exact .skipClause count
  | limitClause count =>
    obtain rfl := Except.ok.inj returned
    exact .limitClause count
  | _ => cases returned

end Tree

/-! ## Queries -/

namespace Query

/-- The clauses of a query are replaced by their normal forms, which are sorted by their places in a
query; its parameters keep their values. -/
structure Rebuilt (q n : Query) : Prop where
  clauses : ∃ forms, List.Forall₂ (fun t form => t.normalClause = .ok form ∧ Tree.ClauseRebuilt t form)
    q.clauses forms ∧ IsStableSort (fun t => t.rank?.getD 0) forms n.clauses
  parameters : n.parameters.Perm q.parameters

/-- A normal query has every part of the query exactly once, and no other. -/
theorem normal_rebuilt {q n : Query} (returned : q.normal = .ok n) : q.Rebuilt n := by
  obtain ⟨forms, parameters, ran, sorted, rfl⟩ := normal_eq_ok.mp returned
  refine ⟨⟨forms, ?_, isStableSort_sortByKey forms⟩, Value.perm_of_sortEntries? sorted⟩
  exact (mapM_eq_ok_iff.mp ran).imp fun _ _ made => ⟨made, Tree.clauseRebuilt_of_normalClause made⟩

/-- A query with every kind of list that is sorted and with two assignments to one property. -/
def jumbled : Query :=
  ⟨[.setClause [.assignment "b" "k" (.literal (.int 1)), .assignment "a" "k" (.parameter "q"),
      .assignment "a" "k" (.parameter "p")],
    .deleteClause ["m", "a"] (.bool true),
    .matchClause (.path [.node "b" ["Z", "A"] (some [("y", .parameter "q"), ("x", .parameter "p")]),
      .relationship "OUT" (some "KNOWS") none none, .node "a" [] none]) (.bool true),
    .deleteClause ["a"] (.bool false)],
   [(.text "q", .bool true), (.text "p", .bool false)]⟩

/-- The normal form of `jumbled`. The assignments to one property and the `DELETE` clauses stay in
their order. -/
def tidied : Query :=
  ⟨[.matchClause (.path [.node "b" ["A", "Z"] (some [("x", .parameter "p"), ("y", .parameter "q")]),
      .relationship "OUT" (some "KNOWS") none none, .node "a" [] none]) (.bool true),
    .deleteClause ["m", "a"] (.bool true), .deleteClause ["a"] (.bool false),
    .setClause [.assignment "a" "k" (.parameter "q"), .assignment "a" "k" (.parameter "p"),
      .assignment "b" "k" (.literal (.int 1))]],
   [(.text "p", .bool false), (.text "q", .bool true)]⟩

theorem normal_rebuilt_jumbled : jumbled.normal = .ok tidied ∧ jumbled.Rebuilt tidied :=
  ⟨by rfl, normal_rebuilt (by rfl)⟩

end Query

end GraphQuery
