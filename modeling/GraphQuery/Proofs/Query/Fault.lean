import GraphQuery.Proofs.Normal.Expression
import GraphQuery.Proofs.Query.Text
import GraphQuery.Proofs.Syntax.Parts
import GraphQuery.Proofs.Value.Order

/-! # Faults of built trees

Any node may stand where a tree expects a node. Taking the normal form of a query and writing its text
then end in a result or in an inconsistency, with one exception: an item of a `SET` or an `ORDER BY`
clause is not looked at before its fields are used, and so it may lack one. The canonical text of a built
tree has no faults at all.
-/

namespace GraphQuery

variable {Item Result : Type}

/-- A step that fails, if it does, with an inconsistency. -/
def OnlyInconsistencies (result : Except TreeFault Result) : Prop :=
  ∀ fault, result = .error fault → fault.isInconsistency = true

namespace OnlyInconsistencies

theorem ok (result : Result) : OnlyInconsistencies (.ok result) := by
  intro fault failed
  cases failed

theorem error {fault : TreeFault} (inconsistency : fault.isInconsistency = true) :
    OnlyInconsistencies (Except.error fault : Except TreeFault Result) := by
  intro other failed
  cases failed
  exact inconsistency

theorem bind {step : Except TreeFault Item} {next : Item → Except TreeFault Result}
    (ofStep : OnlyInconsistencies step) (ofNext : ∀ item, OnlyInconsistencies (next item)) :
    OnlyInconsistencies (step >>= next) := by
  intro fault failed
  rcases bind_eq_error_iff.mp failed with failed | ⟨item, -, failed⟩
  · exact ofStep fault failed
  · exact ofNext item fault failed

/-- What is made of the result of a step does not matter. -/
theorem bind_ok_iff {step : Except TreeFault Item} {wrap : Item → Result} :
    OnlyInconsistencies (step >>= fun item => .ok (wrap item)) ↔ OnlyInconsistencies step := by
  refine ⟨fun all fault failed => ?_, fun ofStep => ofStep.bind fun item => ok _⟩
  exact all fault (bind_eq_error_iff.mpr (.inl failed))

theorem mapM_iff {step : Item → Except TreeFault Result} {items : List Item} :
    OnlyInconsistencies (items.mapM step) ↔
      ∀ item, Reaches step items item → OnlyInconsistencies (step item) := by
  constructor
  · exact fun all item reached fault failed => all fault (mapM_eq_error_iff.mpr ⟨item, reached, failed⟩)
  · intro ofSteps fault failed
    obtain ⟨item, reached, failed⟩ := mapM_eq_error_iff.mp failed
    exact ofSteps item reached fault failed

theorem mapM {step : Item → Except TreeFault Result} (ofStep : ∀ item, OnlyInconsistencies (step item))
    (items : List Item) : OnlyInconsistencies (items.mapM step) :=
  mapM_iff.mpr fun item _ => ofStep item

end OnlyInconsistencies

namespace Tree

open OnlyInconsistencies

/-! ## Normal forms -/

mutual

theorem onlyInconsistencies_normalExpression : (t : Tree) → OnlyInconsistencies t.normalExpression
  | .literal _ | .property _ _ | .parameter _ => .ok _
  | .unary _ operand => (onlyInconsistencies_normalExpression operand).bind fun _ => .ok _
  | .binary _ left right => (onlyInconsistencies_normalExpression left).bind fun _ =>
    (onlyInconsistencies_normalExpression right).bind fun _ => .ok _
  | .call _ args => (onlyInconsistencies_normalExpressions args).bind fun _ => .ok _
  | .node _ _ _ | .relationship _ _ _ _ | .path _ | .variableItem _ _ | .expressionItem _ _
  | .assignment _ _ _ | .orderItem _ _ | .matchClause _ _ | .whereClause _ | .createClause _
  | .deleteClause _ _ | .setClause _ | .withClause _ | .returnClause _ | .orderByClause _
  | .skipClause _ | .limitClause _ | .query _ _ | .scalar _ | .tuple _ | .mapping _ => .error rfl

private theorem onlyInconsistencies_normalExpressions :
    (items : List Tree) → OnlyInconsistencies (normalExpressions items)
  | [] => .ok _
  | t :: rest => (onlyInconsistencies_normalExpression t).bind fun _ =>
    (onlyInconsistencies_normalExpressions rest).bind fun _ => .ok _

end

private theorem onlyInconsistencies_normalProperties (properties : Option (List (String × Tree))) :
    OnlyInconsistencies (normalProperties properties) := by
  cases properties with
  | none => exact .ok _
  | some entries =>
    refine .bind (.mapM (fun entry => ?_) _) fun _ => .ok _
    exact (onlyInconsistencies_normalExpression entry.2).bind fun _ => .ok _

private theorem onlyInconsistencies_normalElement (t : Tree) : OnlyInconsistencies t.normalElement := by
  cases t with
  | node => exact (onlyInconsistencies_normalProperties _).bind fun _ => .ok _
  | relationship => exact (onlyInconsistencies_normalProperties _).bind fun _ => .ok _
  | _ => exact .error rfl

theorem onlyInconsistencies_normalPattern (t : Tree) : OnlyInconsistencies t.normalPattern := by
  cases t with
  | path => exact (mapM onlyInconsistencies_normalElement _).bind fun _ => .ok _
  | node | relationship =>
    simp only [normalPattern, isPathElement, if_true]
    exact onlyInconsistencies_normalElement _
  | _ => exact .error rfl

theorem onlyInconsistencies_normalReturnItem (t : Tree) : OnlyInconsistencies t.normalReturnItem := by
  cases t with
  | variableItem => exact .ok _
  | expressionItem => exact (onlyInconsistencies_normalExpression _).bind fun _ => .ok _
  | _ => exact .error rfl

/-! ## Texts -/

mutual

theorem onlyInconsistencies_expressionChars : (t : Tree) → OnlyInconsistencies t.expressionChars
  | .literal _ | .property _ _ | .parameter _ => .ok _
  | .unary op operand => by
    rw [expressionChars]
    split
    · exact .error rfl
    · exact (onlyInconsistencies_expressionChars operand).bind fun _ => .ok _
  | .binary op left right => by
    rw [expressionChars]
    split
    · exact .error rfl
    · exact (onlyInconsistencies_expressionChars left).bind fun _ =>
        (onlyInconsistencies_expressionChars right).bind fun _ => .ok _
  | .call _ args => (onlyInconsistencies_argumentChars args).bind fun _ => .ok _
  | .node _ _ _ | .relationship _ _ _ _ | .path _ | .variableItem _ _ | .expressionItem _ _
  | .assignment _ _ _ | .orderItem _ _ | .matchClause _ _ | .whereClause _ | .createClause _
  | .deleteClause _ _ | .setClause _ | .withClause _ | .returnClause _ | .orderByClause _
  | .skipClause _ | .limitClause _ | .query _ _ | .scalar _ | .tuple _ | .mapping _ => .error rfl

private theorem onlyInconsistencies_argumentChars :
    (items : List Tree) → OnlyInconsistencies (argumentChars items)
  | [] => .ok _
  | t :: rest => (onlyInconsistencies_expressionChars t).bind fun _ =>
    (onlyInconsistencies_argumentChars rest).bind fun _ => .ok _

end

private theorem onlyInconsistencies_propertiesChars (properties : Option (List (String × Tree))) :
    OnlyInconsistencies (propertiesChars properties) := by
  cases properties with
  | none => exact .ok _
  | some entries =>
    refine .bind (.mapM (fun entry => ?_) _) fun _ => .ok _
    exact (onlyInconsistencies_expressionChars entry.2).bind fun _ => .ok _

mutual

theorem onlyInconsistencies_patternChars : (t : Tree) → OnlyInconsistencies t.patternChars
  | .node _ _ properties => (onlyInconsistencies_propertiesChars properties).bind fun _ => .ok _
  | .relationship direction _ _ properties => by
    rw [patternChars]
    refine (onlyInconsistencies_propertiesChars properties).bind fun cs => ?_
    cases arrow? direction with
    | none => exact .error rfl
    | some => exact .ok _
  | .path elements => onlyInconsistencies_elementChars elements
  | .literal _ | .property _ _ | .parameter _ | .binary _ _ _ | .unary _ _ | .call _ _
  | .variableItem _ _ | .expressionItem _ _ | .assignment _ _ _ | .orderItem _ _ | .matchClause _ _
  | .whereClause _ | .createClause _ | .deleteClause _ _ | .setClause _ | .withClause _
  | .returnClause _ | .orderByClause _ | .skipClause _ | .limitClause _ | .query _ _ | .scalar _
  | .tuple _ | .mapping _ => .error rfl

private theorem onlyInconsistencies_elementChars :
    (elements : List Tree) → OnlyInconsistencies (elementChars elements)
  | [] => .ok _
  | t :: rest => (onlyInconsistencies_patternChars t).bind fun _ =>
    (onlyInconsistencies_elementChars rest).bind fun _ => .ok _

end

theorem onlyInconsistencies_returnItemChars (t : Tree) : OnlyInconsistencies t.returnItemChars := by
  cases t with
  | variableItem => exact .ok _
  | expressionItem => exact (onlyInconsistencies_expressionChars _).bind fun _ => .ok _
  | _ => exact .error rfl

/-! ## Walks over clauses -/

/-- A way to read the clauses of a query, with what it reads of them on the way. -/
structure Walk (Result : Type) where
  expression : Tree → Except TreeFault Result
  assignment : Tree → Except TreeFault Result
  orderItem : Tree → Except TreeFault Result
  clause : Tree → Except TreeFault Result

def normalWalk : Walk Tree :=
  ⟨normalExpression, normalAssignment, normalOrderItem, normalClause⟩

def textWalk : Walk (List Char) :=
  ⟨expressionChars, assignmentChars, orderItemChars, clauseChars⟩

namespace Walk

variable (walk : Walk Result)

/-- An item of an `ORDER BY` clause lacks a field that is used: its expression, or the direction behind an
expression that was read. -/
def OrderItemLacksField : Tree → Prop
  | .orderItem _ _ => False
  | .expressionItem expr _ => ∃ result, walk.expression expr = .ok result
  | _ => True

/-- An item of a clause is reached that lacks a field that every item in its place has. -/
def ClauseLacksField : Tree → Prop
  | .setClause items => ∃ item, Reaches walk.assignment items item ∧ item.isAssignment = false
  | .orderByClause items => ∃ item, Reaches walk.orderItem items item ∧ walk.OrderItemLacksField item
  | _ => False

/-- A clause is reached in which an item is reached that lacks a field. -/
def LacksField (clauses : List Tree) : Prop :=
  ∃ clause, Reaches walk.clause clauses clause ∧ walk.ClauseLacksField clause

/-- What a walk does with the items of clauses that it does not look at. -/
structure IsUnguarded : Prop where
  assignment : ∀ t, OnlyInconsistencies (walk.assignment t) ↔ t.isAssignment = true
  orderItem : ∀ t, OnlyInconsistencies (walk.orderItem t) ↔ ¬walk.OrderItemLacksField t
  setClause : ∀ items, OnlyInconsistencies (walk.clause (.setClause items)) ↔
    OnlyInconsistencies (items.mapM walk.assignment)
  orderByClause : ∀ items, OnlyInconsistencies (walk.clause (.orderByClause items)) ↔
    OnlyInconsistencies (items.mapM walk.orderItem)
  clause : ∀ t, (∀ items, t ≠ .setClause items) → (∀ items, t ≠ .orderByClause items) →
    OnlyInconsistencies (walk.clause t)

variable {walk}

theorem IsUnguarded.clause_iff (unguarded : walk.IsUnguarded) (t : Tree) :
    OnlyInconsistencies (walk.clause t) ↔ ¬walk.ClauseLacksField t := by
  cases t with
  | setClause items =>
    simp only [unguarded.setClause, mapM_iff, unguarded.assignment, ClauseLacksField, not_exists, not_and,
      Bool.not_eq_false]
  | orderByClause items =>
    simp only [unguarded.orderByClause, mapM_iff, unguarded.orderItem, ClauseLacksField, not_exists, not_and]
  | _ =>
    refine iff_of_true (unguarded.clause _ ?_ ?_) not_false <;>
      · intro items same
        cases same

/-- A walk over clauses ends in a result or in an inconsistency exactly if it reaches no item that lacks
a field. -/
theorem IsUnguarded.mapM_iff (unguarded : walk.IsUnguarded) (clauses : List Tree) :
    OnlyInconsistencies (clauses.mapM walk.clause) ↔ ¬walk.LacksField clauses := by
  simp only [OnlyInconsistencies.mapM_iff, unguarded.clause_iff, LacksField, not_exists, not_and]

end Walk

theorem not_onlyInconsistencies_missingField :
    ¬OnlyInconsistencies (Except.error .missingField : Except TreeFault Result) := by
  intro all
  cases all .missingField rfl

/-- A field that is missed behind a step is missed only if the step has a result. -/
theorem bind_missingField_iff {step : Except TreeFault Item} (ofStep : OnlyInconsistencies step) :
    OnlyInconsistencies (step >>= fun _ => (.error .missingField : Except TreeFault Result)) ↔
      ¬∃ item, step = .ok item := by
  constructor
  · rintro all ⟨item, rfl⟩
    exact not_onlyInconsistencies_missingField all
  · intro noResult fault failed
    rcases bind_eq_error_iff.mp failed with failed | ⟨item, ran, -⟩
    · exact ofStep fault failed
    · exact absurd ⟨item, ran⟩ noResult

theorem isUnguarded_normalWalk : normalWalk.IsUnguarded where
  assignment t := by
    cases t with
    | assignment _ _ value =>
      exact iff_of_true ((onlyInconsistencies_normalExpression value).bind fun _ => .ok _) rfl
    | _ => exact iff_of_false not_onlyInconsistencies_missingField (by simp [isAssignment])
  orderItem t := by
    cases t with
    | orderItem expr =>
      exact iff_of_true ((onlyInconsistencies_normalExpression expr).bind fun _ => .ok _) not_false
    | expressionItem expr => exact bind_missingField_iff (onlyInconsistencies_normalExpression expr)
    | _ => exact iff_of_false not_onlyInconsistencies_missingField (not_not_intro trivial)
  setClause items := bind_ok_iff
  orderByClause items := bind_ok_iff
  clause t noSet noOrder := by
    cases t with
    | setClause items => exact absurd rfl (noSet items)
    | orderByClause items => exact absurd rfl (noOrder items)
    | matchClause pattern => exact (onlyInconsistencies_normalPattern pattern).bind fun _ => .ok _
    | whereClause condition => exact (onlyInconsistencies_normalExpression condition).bind fun _ => .ok _
    | createClause pattern => exact (onlyInconsistencies_normalPattern pattern).bind fun _ => .ok _
    | withClause items => exact (mapM onlyInconsistencies_normalReturnItem items).bind fun _ => .ok _
    | returnClause items => exact (mapM onlyInconsistencies_normalReturnItem items).bind fun _ => .ok _
    | deleteClause | skipClause | limitClause => exact .ok _
    | _ => exact .error rfl

theorem isUnguarded_textWalk : textWalk.IsUnguarded where
  assignment t := by
    cases t with
    | assignment _ _ value =>
      exact iff_of_true ((onlyInconsistencies_expressionChars value).bind fun _ => .ok _) rfl
    | _ => exact iff_of_false not_onlyInconsistencies_missingField (by simp [isAssignment])
  orderItem t := by
    cases t with
    | orderItem expr =>
      exact iff_of_true ((onlyInconsistencies_expressionChars expr).bind fun _ => .ok _) not_false
    | expressionItem expr => exact bind_missingField_iff (onlyInconsistencies_expressionChars expr)
    | _ => exact iff_of_false not_onlyInconsistencies_missingField (not_not_intro trivial)
  setClause items := bind_ok_iff
  orderByClause items := bind_ok_iff
  clause t noSet noOrder := by
    cases t with
    | setClause items => exact absurd rfl (noSet items)
    | orderByClause items => exact absurd rfl (noOrder items)
    | matchClause pattern => exact (onlyInconsistencies_patternChars pattern).bind fun _ => .ok _
    | whereClause condition => exact (onlyInconsistencies_expressionChars condition).bind fun _ => .ok _
    | createClause pattern => exact (onlyInconsistencies_patternChars pattern).bind fun _ => .ok _
    | withClause items => exact (mapM onlyInconsistencies_returnItemChars items).bind fun _ => .ok _
    | returnClause items => exact (mapM onlyInconsistencies_returnItemChars items).bind fun _ => .ok _
    | deleteClause | skipClause | limitClause => exact .ok _
    | _ => exact .error rfl

/-! ## Built trees -/

def isWhole : Value → Bool
  | .int _ => true
  | _ => false

mutual

/-- Whether a tree is a node with aliases, flags, numbers of rows and parameters of their types and a node
of any kind wherever a node is expected. Names and operators are texts as they are. -/
def isBuilt : Tree → Bool
  | .literal _ | .property _ _ | .parameter _ => true
  | .binary _ left right => isBuilt left && isBuilt right
  | .unary _ t | .assignment _ _ t | .orderItem t _ | .whereClause t | .createClause t => isBuilt t
  | .call _ items | .path items | .setClause items | .withClause items | .returnClause items
  | .orderByClause items => areBuilt items
  | .node _ _ properties | .relationship _ _ _ properties => propertiesAreBuilt properties
  | .variableItem _ renamed => isAlias renamed
  | .expressionItem t renamed => isBuilt t && isAlias renamed
  | .matchClause t optional => isBuilt t && isFlag optional
  | .deleteClause _ detach => isFlag detach
  | .skipClause count | .limitClause count => isWhole count
  | .query clauses parameters => areBuilt clauses && areParameters parameters
  | .scalar _ | .tuple _ | .mapping _ => false

/-- Whether several trees are built. -/
def areBuilt : List Tree → Bool
  | [] => true
  | t :: rest => isBuilt t && areBuilt rest

/-- Whether properties are built, or absent. -/
def propertiesAreBuilt : Option (List (String × Tree)) → Bool
  | none => true
  | some entries => entriesAreBuilt entries

/-- Whether everything under a name is built. -/
def entriesAreBuilt : List (String × Tree) → Bool
  | [] => true
  | (_, t) :: rest => isBuilt t && entriesAreBuilt rest

end

end Tree

namespace Outline

mutual

/-- Whether the document of an outline shows everything: every scalar has a document, and every key is a
name. -/
def isShown : Outline → Bool
  | .node _ fields => fieldsAreShown fields
  | .tuple items => itemsAreShown items
  | .properties entries => fieldsAreShown entries
  | .mapping entries => entriesAreShown entries
  | .parameters _ | .data _ => true
  | .scalar value => (value.document? false).isSome

/-- Whether the documents of fields show everything. -/
def fieldsAreShown : List (String × Outline) → Bool
  | [] => true
  | (_, item) :: rest => isShown item && fieldsAreShown rest

/-- Whether the documents of items show everything. -/
def itemsAreShown : List Outline → Bool
  | [] => true
  | item :: rest => isShown item && itemsAreShown rest

/-- Whether the documents of entries show everything. -/
def entriesAreShown : List (Value × Outline) → Bool
  | [] => true
  | (key, item) :: rest => key.keyName?.isSome && isShown item && entriesAreShown rest

end

theorem itemsAreShown_names (names : List String) : itemsAreShown (names.map .name) = true := by
  induction names with
  | nil => rfl
  | cons s rest ih => rw [List.map_cons, itemsAreShown, ih]; rfl

theorem isShown_name? (s : Option String) : (name? s).isShown = true := by
  cases s <;> rfl

end Outline

namespace Tree

open Outline (isShown fieldsAreShown itemsAreShown itemsAreShown_names isShown_name?)

private theorem isSome_document?_alias {renamed : Value} (isAlias : isAlias renamed = true) :
    (renamed.document? false).isSome = true := by
  cases renamed <;> first | rfl | cases isAlias

private theorem isSome_document?_flag {flag : Value} (isFlag : isFlag flag = true) :
    (flag.document? false).isSome = true := by
  cases flag <;> first | rfl | cases isFlag

private theorem isSome_document?_whole {count : Value} (isWhole : isWhole count = true) :
    (count.document? false).isSome = true := by
  cases count <;> first | rfl | cases isWhole

mutual

/-- The document of a built tree shows everything that the tree holds. -/
theorem isShown_outline : (t : Tree) → t.isBuilt = true → t.outline.isShown = true
  | .literal _, _ | .property _ _, _ | .parameter _, _ => rfl
  | .binary op left right, built => by
    simp only [isBuilt, Bool.and_eq_true] at built
    simp only [outline, isShown, fieldsAreShown, isShown_outline left built.1, isShown_outline right built.2]
    rfl
  | .unary _ t, built | .whereClause t, built | .createClause t, built | .assignment _ _ t, built
  | .orderItem t _, built => by
    simp only [outline, isShown, fieldsAreShown, isShown_outline t built]
    rfl
  | .call _ items, built | .path items, built | .setClause items, built | .withClause items, built
  | .returnClause items, built | .orderByClause items, built => by
    simp only [outline, isShown, fieldsAreShown, itemsAreShown_outlines items built]
    rfl
  | .node _ labels properties, built => by
    simp only [outline, isShown, fieldsAreShown, itemsAreShown_names, isShown_outlineProperties properties built]
    rfl
  | .relationship _ type name properties, built => by
    simp only [outline, isShown, fieldsAreShown, isShown_name?, isShown_outlineProperties properties built]
    rfl
  | .variableItem _ renamed, built => by
    simp only [outline, isShown, fieldsAreShown, isSome_document?_alias built]
    rfl
  | .expressionItem t renamed, built => by
    simp only [isBuilt, Bool.and_eq_true] at built
    simp only [outline, isShown, fieldsAreShown, isShown_outline t built.1, isSome_document?_alias built.2]
    rfl
  | .matchClause t optional, built => by
    simp only [isBuilt, Bool.and_eq_true] at built
    simp only [outline, isShown, fieldsAreShown, isShown_outline t built.1, isSome_document?_flag built.2]
    rfl
  | .deleteClause names detach, built => by
    simp only [outline, isShown, fieldsAreShown, itemsAreShown_names, isSome_document?_flag built]
    rfl
  | .skipClause count, built | .limitClause count, built => by
    simp only [outline, isShown, fieldsAreShown, isSome_document?_whole built]
    rfl
  | .query clauses _, built => by
    simp only [isBuilt, Bool.and_eq_true] at built
    simp only [outline, isShown, fieldsAreShown, itemsAreShown_outlines clauses built.1]
    rfl
  | .scalar _, built | .tuple _, built | .mapping _, built => by cases built

private theorem itemsAreShown_outlines :
    (items : List Tree) → areBuilt items = true → itemsAreShown (outlines items) = true
  | [], _ => rfl
  | t :: rest, built => by
    simp only [areBuilt, Bool.and_eq_true] at built
    simp only [outlines, itemsAreShown, isShown_outline t built.1, itemsAreShown_outlines rest built.2,
      Bool.and_self]

private theorem isShown_outlineProperties : (properties : Option (List (String × Tree))) →
    propertiesAreBuilt properties = true → (outlineProperties properties).isShown = true
  | none, _ => rfl
  | some entries, built => by
    simp only [outlineProperties, isShown, fieldsAreShown_outlineFields entries built]

private theorem fieldsAreShown_outlineFields : (entries : List (String × Tree)) →
    entriesAreBuilt entries = true → fieldsAreShown (outlineFields entries) = true
  | [], _ => rfl
  | (_, t) :: rest, built => by
    simp only [entriesAreBuilt, Bool.and_eq_true] at built
    simp only [outlineFields, fieldsAreShown, isShown_outline t built.1,
      fieldsAreShown_outlineFields rest built.2, Bool.and_self]

end

/-- The canonical text of a built tree is written. A query that is built has a normal form and a text, or
there is an inconsistency, unless an item is reached that lacks a field. -/
theorem onlyInconsistencies_of_isBuilt {t : Tree} (built : t.isBuilt = true) :
    (t.nodeText = .ok t.canonicalText ∧ t.outline.isShown = true) ∧
      ∀ q, Query.ofTree? t = some q →
        (OnlyInconsistencies q.normal ↔ ¬normalWalk.LacksField q.clauses) ∧
          (OnlyInconsistencies q.statement ↔ ¬textWalk.LacksField q.clauses) := by
  refine ⟨⟨?_, isShown_outline t built⟩, ?_⟩
  · cases t <;> first | rfl | cases built
  · intro q isQuery
    rw [← isUnguarded_normalWalk.mapM_iff, ← isUnguarded_textWalk.mapM_iff]
    cases t with
    | query clauses parameters =>
      obtain rfl := Option.some.inj isQuery
      simp only [isBuilt, Bool.and_eq_true] at built
      have sorted := Value.sortEntries?_of_texts (areParameters_iff.mp built.2).1
      refine ⟨?_, OnlyInconsistencies.bind_ok_iff⟩
      simp only [Query.normal, sorted]
      exact OnlyInconsistencies.bind_ok_iff
    | _ => cases isQuery

/-- A query with a pattern for an expression, a clause for a pattern, an operator that does not exist, and
an item that lacks its direction behind them. -/
def misplaced : Query :=
  ⟨[.setClause [.assignment "n" "x" (.path [.skipClause (.int (-1))])],
    .matchClause (.whereClause (.binary "=>" (.literal .null) (.variableItem "n" .null))) (.bool false),
    .orderByClause [.expressionItem (.property "n" "x") .null]], [(.text "b", .int 1), (.text "a", .int 2)]⟩

theorem onlyInconsistencies_of_isBuilt_misplaced : misplaced.toTree.isBuilt = true ∧
    misplaced.toTree.nodeText = .ok misplaced.toTree.canonicalText ∧
      ¬normalWalk.LacksField misplaced.clauses ∧ ¬textWalk.LacksField misplaced.clauses := by
  have built : misplaced.toTree.isBuilt = true := by decide
  obtain ⟨⟨written, -⟩, faults⟩ := onlyInconsistencies_of_isBuilt built
  obtain ⟨normal, text⟩ := faults misplaced rfl
  have unknown : (TreeFault.unknownExpression (.path [.skipClause (.int (-1))])).isInconsistency = true := rfl
  exact ⟨built, written, normal.mp (.error unknown), text.mp (.error unknown)⟩

/-- A query that sets what is no assignment. -/
def unassigned : Query :=
  ⟨[.setClause [.property "n" "x"]], []⟩

/-- A query that is built can fail with a fault that is no inconsistency. -/
theorem not_onlyInconsistencies_unassigned : unassigned.toTree.isBuilt = true ∧
    ¬OnlyInconsistencies unassigned.normal ∧ ¬OnlyInconsistencies unassigned.statement :=
  ⟨by decide, not_onlyInconsistencies_missingField, not_onlyInconsistencies_missingField⟩

end Tree

end GraphQuery
