import GraphQuery.Proofs.Syntax.Parts
import GraphQuery.Proofs.Value.Identity

/-! # What the fields of a node hold

A node can be stored if it is well-formed and the data of the caller in it are values of documents.
Below such a node stand further nodes that can be stored, names, flags and numbers, lists of these,
and nodes under distinct names: `Tree.IsContent`.
-/

namespace GraphQuery

namespace Value

/-- Whether a value is one that fields hold on their own: null, a flag, a number or a text. -/
def isAtom : Value → Bool
  | .null | .bool _ | .int _ | .text _ => true
  | _ => false

end Value

namespace Tree

/-- Whether a node is well-formed and a document can express the data of the caller in it. -/
def storable (t : Tree) : Bool :=
  t.wellFormed && t.rawParts.all fun part => part.2.isJson

/-- What stands in the fields of nodes that can be stored. -/
inductive IsContent : Tree → Prop where
  | node {t : Tree} : t.storable → IsContent t
  | scalar {value : Value} : value.isAtom → IsContent (.scalar value)
  | tuple {items : List Tree} : (∀ item ∈ items, IsContent item) → IsContent (.tuple items)
  | mapping {entries : List (String × Tree)} : (entries.map Prod.fst).Nodup →
    (∀ entry ∈ entries, entry.2.isExpression) → (∀ entry ∈ entries, IsContent entry.2) →
    IsContent (.mapping (entries.map fun entry => (.text entry.1, entry.2)))

theorem isJson_of_storable {t : Tree} (storable : t.storable) : ∀ part ∈ t.rawParts, part.2.isJson := by
  rw [Tree.storable, Bool.and_eq_true, List.all_eq_true] at storable
  exact storable.2

theorem wellFormed_of_storable {t : Tree} (storable : t.storable) : t.wellFormed := by
  rw [Tree.storable, Bool.and_eq_true] at storable
  exact storable.1

/-- Well-formed nodes within a query can be stored. -/
theorem storable_of_wellFormed {t : Tree} (formed : t.wellFormed) (inner : Query.ofTree? t = none) :
    t.storable := by
  cases t <;> simp_all [Tree.storable, rawParts, wellFormed, Query.ofTree?]

theorem exists_kind_of_wellFormed {t : Tree} (formed : t.wellFormed) : ∃ kind, t.kind? = some kind := by
  cases t <;> first | exact ⟨_, rfl⟩ | cases formed

theorem exists_kind_of_isExpression {t : Tree} (expression : t.isExpression = true) :
    ∃ kind, t.kind? = some kind := by
  cases t <;> first | exact ⟨_, rfl⟩ | cases expression

/-! ## Classes of nodes -/

/-- A class of trees has only nodes that stand within queries. -/
structure IsInner (belongs : Tree → Bool) : Prop where
  query : ∀ clauses parameters, belongs (.query clauses parameters) = false
  scalar : ∀ value, belongs (.scalar value) = false
  tuple : ∀ items, belongs (.tuple items) = false
  mapping : ∀ entries, belongs (.mapping entries) = false

theorem isInner_isExpression : IsInner isExpression :=
  ⟨fun _ _ => rfl, fun _ => rfl, fun _ => rfl, fun _ => rfl⟩

theorem isInner_isPattern : IsInner isPattern :=
  ⟨fun _ _ => rfl, fun _ => rfl, fun _ => rfl, fun _ => rfl⟩

theorem isInner_isPathElement : IsInner isPathElement :=
  ⟨fun _ _ => rfl, fun _ => rfl, fun _ => rfl, fun _ => rfl⟩

theorem isInner_isReturnItem : IsInner isReturnItem :=
  ⟨fun _ _ => rfl, fun _ => rfl, fun _ => rfl, fun _ => rfl⟩

theorem isInner_isAssignment : IsInner isAssignment :=
  ⟨fun _ _ => rfl, fun _ => rfl, fun _ => rfl, fun _ => rfl⟩

theorem isInner_isOrderItem : IsInner isOrderItem :=
  ⟨fun _ _ => rfl, fun _ => rfl, fun _ => rfl, fun _ => rfl⟩

theorem isInner_isClause : IsInner isClause :=
  ⟨fun _ _ => rfl, fun _ => rfl, fun _ => rfl, fun _ => rfl⟩

namespace IsContent

variable {belongs : Tree → Bool} (inner : IsInner belongs)
include inner

theorem of_belongs {t : Tree} (belonging : belongs t = true) (formed : t.wellFormed) : IsContent t := by
  cases t with
  | query clauses parameters =>
    rw [inner.query] at belonging
    cases belonging
  | _ => exact .node (storable_of_wellFormed formed rfl)

theorem of_all {items : List Tree} (belonging : items.all belongs = true)
    (formed : allWellFormed items = true) : IsContent (.tuple items) := by
  rw [List.all_eq_true] at belonging
  rw [allWellFormed_eq_all, List.all_eq_true] at formed
  exact .tuple fun item member => of_belongs inner (belonging item member) (formed item member)

end IsContent

/-! ## The contents of a node -/

namespace IsContent

theorem ofName (s : String) : IsContent (.ofName s) := .scalar rfl

theorem ofName? (s : Option String) : IsContent (.ofName? s) := by
  cases s <;> exact .scalar rfl

theorem ofNames (names : List String) : IsContent (.tuple (names.map .ofName)) := by
  apply tuple
  intro item member
  obtain ⟨s, -, rfl⟩ := List.mem_map.mp member
  exact ofName s

theorem ofProperties {properties : Option (List (String × Tree))}
    (formed : propertiesWellFormed properties = true) : IsContent (.ofProperties properties) := by
  cases properties with
  | none => exact .scalar rfl
  | some entries =>
    simp only [propertiesWellFormed, entriesWellFormed_eq_all, Bool.and_eq_true, decide_eq_true_eq,
      List.all_eq_true] at formed
    obtain ⟨distinct, all⟩ := formed
    refine mapping distinct (fun entry member => (all entry member).1) fun entry member => ?_
    exact of_belongs isInner_isExpression (all entry member).1 (all entry member).2

theorem scalar_of_isAlias {renamed : Value} (isAlias : isAlias renamed = true) :
    IsContent (.scalar renamed) := by
  cases renamed <;> first | exact .scalar rfl | cases isAlias

theorem scalar_of_isFlag {flag : Value} (isFlag : isFlag flag = true) : IsContent (.scalar flag) := by
  cases flag <;> first | exact .scalar rfl | cases isFlag

theorem scalar_of_isCount {count : Value} (isCount : isCount count = true) :
    IsContent (.scalar count) := by
  cases count <;> first | exact .scalar rfl | cases isCount

end IsContent

/-- The fields of a well-formed node hold contents. -/
theorem isContent_of_mem_parts {t : Tree} (formed : t.wellFormed) :
    ∀ part ∈ t.parts, IsContent part.2 := by
  have expression {t : Tree} := @IsContent.of_belongs _ isInner_isExpression t
  have pattern {t : Tree} := @IsContent.of_belongs _ isInner_isPattern t
  cases t <;> simp only [wellFormed, Bool.and_eq_true] at formed <;>
    simp only [parts, List.forall_mem_cons, List.not_mem_nil, false_implies, implies_true, and_true,
      IsContent.ofName, true_and]
  case binary => exact ⟨expression formed.1.1.1.2 formed.1.2, expression formed.1.1.2 formed.2⟩
  case unary => exact expression formed.1.2 formed.2
  case call => exact IsContent.of_all isInner_isExpression formed.1 formed.2
  case node => exact ⟨.ofNames _, .ofProperties formed⟩
  case relationship => exact ⟨.ofName? _, .ofName? _, .ofProperties formed.2⟩
  case path => exact IsContent.of_all isInner_isPathElement formed.1 formed.2
  case variableItem => exact .scalar_of_isAlias formed
  case expressionItem => exact ⟨expression formed.1.1 formed.2, .scalar_of_isAlias formed.1.2⟩
  case assignment => exact expression formed.1 formed.2
  case orderItem => exact expression formed.1.1 formed.2
  case matchClause => exact ⟨pattern formed.1.1 formed.2, .scalar_of_isFlag formed.1.2⟩
  case whereClause => exact expression formed.1 formed.2
  case createClause => exact pattern formed.1 formed.2
  case deleteClause => exact ⟨.ofNames _, .scalar_of_isFlag formed⟩
  case setClause => exact IsContent.of_all isInner_isAssignment formed.1 formed.2
  case withClause | returnClause =>
    exact IsContent.of_all isInner_isReturnItem formed.1 formed.2
  case orderByClause => exact IsContent.of_all isInner_isOrderItem formed.1 formed.2
  case skipClause | limitClause => exact .scalar_of_isCount formed
  case query => exact IsContent.of_all isInner_isClause formed.1.1 formed.2

end Tree

end GraphQuery
