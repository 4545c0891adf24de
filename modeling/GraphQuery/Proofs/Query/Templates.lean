import GraphQuery.Proofs.Assoc
import GraphQuery.Proofs.Normal.Copied
import GraphQuery.Proofs.Normal.Form
import GraphQuery.Proofs.Normal.Values
import GraphQuery.Proofs.Query.Text
import GraphQuery.Proofs.Syntax.Parts
import GraphQuery.Proofs.Value.Sorted
import GraphQuery.Query.Digest
import GraphQuery.Query.Templates
import GraphQuery.Value.Entries

/-! # Queries for common tasks are closed

The parameters that occur in a query of a helper are those that it binds, and every property is
written with a parameter of its own that is bound to the value of the property. Nothing of the values
is part of the text: it is the same for all calls of a helper with one label and one set of keys. A value
that cannot be copied is in the way of every text.

The mark on the parameters of an update never makes the name of the parameter that selects the node,
so that an update may write to any property, also to one that is called `id` or `set_id`.
-/

namespace GraphQuery

namespace Tree

/-! ## The parameters of trees -/

/-- Whether a parameter occurs in a tree. -/
inductive Uses (name : String) : Tree → Prop where
  | parameter : Uses name (.parameter name)
  | part {t part : Tree} {field : String} : (field, part) ∈ t.parts → Uses name part → Uses name t
  | item {items : List Tree} {item : Tree} : item ∈ items → Uses name item → Uses name (.tuple items)
  | entry {entries : List (Value × Tree)} {key : Value} {item : Tree} :
    (key, item) ∈ entries → Uses name item → Uses name (.mapping entries)

section Uses

variable {name : String}

/-- In a node that is no parameter itself, a parameter occurs in one of the parts. -/
theorem uses_iff_of_kind {t : Tree} {kind : String} (node : t.kind? = some kind)
    (other : kind ≠ "Parameter") : t.Uses name ↔ ∃ part ∈ t.parts, part.2.Uses name := by
  constructor
  · intro uses
    cases uses with
    | parameter => exact absurd (Option.some.inj node).symm other
    | part member inner => exact ⟨_, member, inner⟩
    | item => cases node
    | entry => cases node
  · rintro ⟨part, member, inner⟩
    exact .part member inner

@[simp] theorem uses_parameter {other : String} : (parameter other).Uses name ↔ other = name := by
  constructor
  · intro uses
    cases uses with
    | parameter => rfl
    | part member inner =>
      simp only [parts, List.mem_singleton, Prod.mk.injEq] at member
      obtain ⟨-, rfl⟩ := member
      cases inner with
      | part member => cases member
  · rintro rfl
    exact .parameter

@[simp] theorem not_uses_scalar {value : Value} : ¬(scalar value).Uses name := by
  intro uses
  cases uses with
  | part member => cases member

@[simp] theorem uses_tuple {items : List Tree} : (tuple items).Uses name ↔ ∃ item ∈ items, item.Uses name := by
  constructor
  · intro uses
    cases uses with
    | part member => cases member
    | item member inner => exact ⟨_, member, inner⟩
  · rintro ⟨item, member, inner⟩
    exact .item member inner

@[simp] theorem uses_ofProperties {entries : List (String × Tree)} :
    (ofProperties (some entries)).Uses name ↔ ∃ entry ∈ entries, entry.2.Uses name := by
  constructor
  · intro uses
    cases uses with
    | part member => cases member
    | entry member inner =>
      obtain ⟨entry, found, same⟩ := List.mem_map.mp member
      cases same
      exact ⟨entry, found, inner⟩
  · rintro ⟨entry, member, inner⟩
    exact .entry (List.mem_map.mpr ⟨entry, member, rfl⟩) inner

@[simp] theorem uses_node {subject : String} {labels : List String} {entries : List (String × Tree)} :
    (node subject labels (some entries)).Uses name ↔ ∃ entry ∈ entries, entry.2.Uses name := by
  rw [uses_iff_of_kind rfl (by decide)]
  simp [parts, ofName]

@[simp] theorem not_uses_variableItem {subject : String} {renamed : Value} :
    ¬(variableItem subject renamed).Uses name := by
  rw [uses_iff_of_kind rfl (by decide)]
  simp [parts, ofName]

@[simp] theorem uses_assignment {subject key : String} {value : Tree} :
    (assignment subject key value).Uses name ↔ value.Uses name := by
  rw [uses_iff_of_kind rfl (by decide)]
  simp [parts, ofName]

@[simp] theorem uses_matchClause {pattern : Tree} {optional : Value} :
    (matchClause pattern optional).Uses name ↔ pattern.Uses name := by
  rw [uses_iff_of_kind rfl (by decide)]
  simp [parts]

@[simp] theorem uses_createClause {pattern : Tree} :
    (createClause pattern).Uses name ↔ pattern.Uses name := by
  rw [uses_iff_of_kind rfl (by decide)]
  simp [parts]

@[simp] theorem not_uses_deleteClause {names : List String} {detach : Value} :
    ¬(deleteClause names detach).Uses name := by
  rw [uses_iff_of_kind rfl (by decide)]
  simp [parts, ofName]

@[simp] theorem uses_setClause {assignments : List Tree} :
    (setClause assignments).Uses name ↔ ∃ item ∈ assignments, item.Uses name := by
  rw [uses_iff_of_kind rfl (by decide)]
  simp [parts]

@[simp] theorem uses_returnClause {items : List Tree} :
    (returnClause items).Uses name ↔ ∃ item ∈ items, item.Uses name := by
  rw [uses_iff_of_kind rfl (by decide)]
  simp [parts]

@[simp] theorem uses_query {clauses : List Tree} {parameters : List (Value × Value)} :
    (query clauses parameters).Uses name ↔ ∃ clause ∈ clauses, clause.Uses name := by
  rw [uses_iff_of_kind rfl (by decide)]
  simp [parts]

end Uses

end Tree

namespace Template

/-! ## Calls of helpers -/

/-- The properties of a call: values under different keys. -/
structure Properties where
  entries : List (String × Value)
  distinct : (entries.map Prod.fst).Nodup

def Properties.keys (properties : Properties) : List String :=
  properties.entries.map Prod.fst

/-- A call of a helper. -/
inductive Call where
  | find (label : String) (id : Value)
  | create (label : String) (properties : Properties)
  | delete (label : String) (id detach : Value)
  | update (label : String) (id : Value) (properties : Properties)

namespace Call

def query : Call → Query
  | .find label id => findNodeById label id
  | .create label properties => createNode label properties.entries
  | .delete label id detach => deleteNodeById label id detach
  | .update label id properties => updateNodeProperties label id properties.entries

/-- The id that a call selects a node by. -/
def id? : Call → Option Value
  | .find _ id | .delete _ id _ | .update _ id _ => some id
  | .create _ _ => none

def entries : Call → List (String × Value)
  | .find _ _ | .delete _ _ _ => []
  | .create _ properties | .update _ _ properties => properties.entries

/-- The values of a call that become parameters. -/
def values (call : Call) : List Value :=
  call.id?.toList ++ call.entries.map Prod.snd

/-- Two calls of one helper with one label and the same keys, in any order and with any values. Both
deletions take the relationships along, or neither does: that is a choice of the text. -/
inductive SameForm : Call → Call → Prop where
  | find (label : String) (id other : Value) : SameForm (.find label id) (.find label other)
  | create (label : String) {properties others : Properties}
      (keys : ∀ key, key ∈ properties.keys ↔ key ∈ others.keys) :
    SameForm (.create label properties) (.create label others)
  | delete (label : String) (id other detach : Value) :
    SameForm (.delete label id detach) (.delete label other detach)
  | update (label : String) (id other : Value) {properties others : Properties}
      (keys : ∀ key, key ∈ properties.keys ↔ key ∈ others.keys) :
    SameForm (.update label id properties) (.update label other others)

end Call

/-- The expressions that a clause writes to properties, under their keys. -/
def writtenBy : Tree → List (String × Tree)
  | .createClause (.node _ _ (some properties)) => properties
  | .setClause assignments => assignments.filterMap fun
    | .assignment _ key value => some (key, value)
    | _ => none
  | _ => []

/-- Whether a query uses what it binds, and writes what it was given. -/
structure IsClosed (call : Call) : Prop where
  /-- Parameters are texts and bound once. -/
  distinct : (call.query.parameters.map Prod.fst).Nodup
  /-- The parameters that are bound are those that occur. -/
  bound_iff : ∀ key, key ∈ call.query.parameters.map Prod.fst ↔
    ∃ name, key = .text name ∧ call.query.toTree.Uses name
  /-- The id of the call is bound as such. -/
  id_bound : ∀ id ∈ call.id?, Value.lookup "id" call.query.parameters = some id
  /-- Every key is written once, with a parameter that is bound to its value. -/
  written : List.Forall₂ (fun entry written => written.1 = entry.1 ∧
      ∃ name, written.2 = .parameter name ∧ Value.lookup name call.query.parameters = some entry.2)
    call.entries (call.query.clauses.flatMap writtenBy)
  /-- No parameter is written to two keys. -/
  apart : ((call.query.clauses.flatMap writtenBy).map Prod.snd).Nodup

/-! ## Parameters are bound -/

theorem setName_injective : Function.Injective setName := by
  intro key other same
  have texts := congrArg String.toList same
  apply String.toList_inj.mp
  simpa [setName] using texts

theorem setName_ne_id (key : String) : setName key ≠ "id" := by
  intro same
  have texts := congrArg String.toList same
  simp [setName] at texts

private theorem map_fst_named (parameters : List (String × Value)) :
    (named parameters).map Prod.fst = (parameters.map Prod.fst).map .text := by
  rw [named, List.map_map, List.map_map]
  rfl

private theorem mem_named_iff {t : Tree} {parameters : List (String × Value)}
    (uses : ∀ name, t.Uses name ↔ name ∈ parameters.map Prod.fst) (key : Value) :
    key ∈ (named parameters).map Prod.fst ↔ ∃ name, key = .text name ∧ t.Uses name := by
  rw [map_fst_named, List.mem_map]
  constructor
  · rintro ⟨name, bound, rfl⟩
    exact ⟨name, rfl, (uses name).mpr bound⟩
  · rintro ⟨name, rfl, occurs⟩
    exact ⟨name, (uses name).mp occurs, rfl⟩

private theorem nodup_named {parameters : List (String × Value)}
    (distinct : (parameters.map Prod.fst).Nodup) : ((named parameters).map Prod.fst).Nodup := by
  rw [map_fst_named]
  exact distinct.map fun _ _ => Value.text.inj

/-! Both helpers that write properties name the parameter of a key by a text that tells keys apart. -/

section Written

variable {entries : List (String × Value)} {f : String → String}

private theorem forall₂_written {parameters : List (String × Value)}
    (distinct : (parameters.map Prod.fst).Nodup)
    (bound : ∀ entry ∈ entries, (f entry.1, entry.2) ∈ parameters) :
    List.Forall₂ (fun entry (written : String × Tree) => written.1 = entry.1 ∧
        ∃ name, written.2 = .parameter name ∧ Value.lookup name (named parameters) = some entry.2)
      entries (entries.map fun entry => (entry.1, .parameter (f entry.1))) := by
  apply List.forall₂_map_right_iff.mpr
  apply List.forall₂_same.mpr
  intro entry member
  exact ⟨rfl, f entry.1, rfl, Value.lookup_of_mem distinct (bound entry member)⟩

private theorem nodup_written (distinct : (entries.map Prod.fst).Nodup) (injective : f.Injective) :
    ((entries.map fun entry => (entry.1, Tree.parameter (f entry.1))).map Prod.snd).Nodup := by
  have parameters := distinct.map fun key other (same : Tree.parameter (f key) = .parameter (f other)) =>
    injective (Tree.parameter.inj same)
  rw [List.map_map] at parameters ⊢
  exact parameters

end Written

/-- The parameters of an update: the marked ones, and the id behind them. -/
def updateParameters (id : Value) (entries : List (String × Value)) : List (String × Value) :=
  entries.map (fun entry => (setName entry.1, entry.2)) ++ [("id", id)]

private theorem put_id (id : Value) (entries : List (String × Value)) :
    Assoc.put "id" id (entries.map fun entry => (setName entry.1, entry.2)) = updateParameters id entries := by
  apply Assoc.put_of_notMem
  intro member
  obtain ⟨_, found, same⟩ := List.mem_map.mp member
  obtain ⟨entry, -, rfl⟩ := List.mem_map.mp found
  exact setName_ne_id entry.1 same

private theorem nodup_updateParameters (id : Value) {entries : List (String × Value)}
    (distinct : (entries.map Prod.fst).Nodup) : ((updateParameters id entries).map Prod.fst).Nodup := by
  have marked : (entries.map fun entry => setName entry.1).Nodup := by
    have named := distinct.map setName_injective
    rwa [List.map_map] at named
  have apart : ∀ key ∈ entries.map fun entry => setName entry.1, key ≠ "id" := by
    intro key member
    obtain ⟨entry, -, rfl⟩ := List.mem_map.mp member
    exact setName_ne_id entry.1
  rw [updateParameters, List.map_append, List.map_map]
  refine List.nodup_append.mpr ⟨marked, List.nodup_singleton _, fun key member other single => ?_⟩
  obtain rfl := List.mem_singleton.mp single
  exact apart key member

theorem uses_findNodeById {label name : String} {id : Value} :
    (findNodeById label id).toTree.Uses name ↔ name = "id" := by
  simp [findNodeById, Query.toTree, Build.require, selected, Build.node, Build.item, eq_comm]

theorem uses_deleteNodeById {label name : String} {id detach : Value} :
    (deleteNodeById label id detach).toTree.Uses name ↔ name = "id" := by
  simp [deleteNodeById, Query.toTree, Build.require, selected, Build.node, eq_comm]

theorem uses_createNode {label name : String} {entries : List (String × Value)} :
    (createNode label entries).toTree.Uses name ↔ name ∈ entries.map Prod.fst := by
  simp [createNode, Query.toTree, Build.node, Build.item]

theorem uses_updateNodeProperties {label name : String} {id : Value} {entries : List (String × Value)} :
    (updateNodeProperties label id entries).toTree.Uses name ↔
      name ∈ (updateParameters id entries).map Prod.fst := by
  simp [updateNodeProperties, Query.toTree, Build.require, selected, Build.node, Build.item,
    updateParameters, or_comm, eq_comm]

private theorem isClosed_find (label : String) (id : Value) : IsClosed (.find label id) where
  distinct := nodup_named (List.nodup_singleton _)
  bound_iff := by
    apply mem_named_iff
    intro name
    rw [Call.query, uses_findNodeById, List.map_singleton, List.mem_singleton]
  id_bound _ same := by
    cases same
    rfl
  written := .nil
  apart := List.nodup_nil

private theorem isClosed_delete (label : String) (id detach : Value) :
    IsClosed (.delete label id detach) where
  distinct := nodup_named (List.nodup_singleton _)
  bound_iff := by
    apply mem_named_iff
    intro name
    rw [Call.query, uses_deleteNodeById, List.map_singleton, List.mem_singleton]
  id_bound _ same := by
    cases same
    rfl
  written := .nil
  apart := List.nodup_nil

private theorem isClosed_create (label : String) (properties : Properties) :
    IsClosed (.create label properties) := by
  have written : (Call.create label properties).query.clauses.flatMap writtenBy =
      properties.entries.map fun entry => (entry.1, .parameter entry.1) := by
    simp [Call.query, createNode, Build.item, Build.node, writtenBy]
  constructor
  case distinct => exact nodup_named properties.distinct
  case bound_iff => exact mem_named_iff fun _ => uses_createNode
  case id_bound =>
    intro _ same
    cases same
  case written =>
    rw [written]
    exact forall₂_written (f := id) properties.distinct fun _ member => member
  case apart =>
    rw [written]
    exact nodup_written (f := id) properties.distinct Function.injective_id

private theorem isClosed_update (label : String) (id : Value) (properties : Properties) :
    IsClosed (.update label id properties) := by
  have bound : (Call.update label id properties).query.parameters =
      named (updateParameters id properties.entries) := by
    rw [← put_id]
    rfl
  have distinct := nodup_updateParameters id properties.distinct
  have written : (Call.update label id properties).query.clauses.flatMap writtenBy =
      properties.entries.map fun entry => (entry.1, .parameter (setName entry.1)) := by
    simp [Call.query, updateNodeProperties, Build.require, Build.item, writtenBy, selected,
      List.filterMap_map]
  constructor
  case distinct => exact bound ▸ nodup_named distinct
  case bound_iff =>
    rw [bound]
    exact mem_named_iff fun _ => uses_updateNodeProperties
  case id_bound =>
    intro _ same
    cases same
    rw [bound]
    exact Value.lookup_of_mem distinct (List.mem_append_right _ (List.mem_singleton_self _))
  case written =>
    rw [written, bound]
    apply forall₂_written distinct
    intro entry member
    exact List.mem_append_left _ (List.mem_map_of_mem member)
  case apart => exact written ▸ nodup_written properties.distinct setName_injective

/-! ## The text of calls -/

/-- Whether a query is built with a text, and with copies of its parameters in some order. -/
def HasText (copying : Copying) (q : Query) (text : String) : Prop :=
  ∃ parameters, parameters.Perm (q.parameters.map fun entry => (entry.1, entry.2.copied copying.arrange)) ∧
    q.writtenBuild copying = .ok ⟨text, parameters⟩

private structure IsWritten (clause : Tree) : Prop where
  normal : clause.normalClause = .ok clause.normalForm
  chars : ∃ cs, clause.normalForm.clauseChars = .ok cs
  noLiterals : clause.literals = []
  shown : ∀ v ∈ clause.normalForm.shownScalars, v = .null

private theorem isWritten_of_wellFormed {clause : Tree} (kind : clause.isClause = true)
    (formed : clause.wellFormed = true) (noLiterals : clause.literals = [])
    (shown : ∀ v ∈ clause.normalForm.shownScalars, v = .null) : IsWritten clause where
  normal := Tree.normalClause_eq kind formed
  chars := by
    obtain ⟨formedNormal, role⟩ := Tree.wellFormed_normalForm clause formed
    exact Tree.exists_clauseChars ((Tree.isClause_eq_of_role role).trans kind) formedNormal
  noLiterals := noLiterals
  shown := shown

private theorem isWritten_selected (label : String) : IsWritten (Build.require (selected label)) :=
  isWritten_of_wellFormed rfl rfl rfl (List.forall_mem_nil _)

private theorem isWritten_return : IsWritten (.returnClause [Build.item "n"]) :=
  isWritten_of_wellFormed rfl rfl rfl (List.forall_mem_singleton.mpr rfl)

private theorem isWritten_delete (names : List String) (detach : Value) :
    IsWritten (.deleteClause names detach) :=
  ⟨rfl, ⟨_, rfl⟩, rfl, List.forall_mem_nil _⟩

private theorem isWritten_create (label : String) (properties : Properties) :
    IsWritten (.createClause (Build.node "n" [label]
      (properties.entries.map fun entry => (entry.1, .parameter entry.1)))) := by
  refine isWritten_of_wellFormed rfl ?_ ?_ (List.forall_mem_nil _)
  · simpa [Build.node, Tree.wellFormed, Tree.isPattern, Tree.propertiesWellFormed,
      Tree.entriesWellFormed_eq_all, Tree.isExpression, Function.comp_def] using properties.distinct
  · have fields : ∀ v ∈ Tree.literalsOfFields
        (properties.entries.map fun entry => (entry.1, .parameter entry.1)), False := by
      rw [Tree.literalsOfFields_eq_flatMap, List.forall_mem_flatMap, List.forall_mem_map]
      exact fun _ _ => List.forall_mem_nil _
    exact List.eq_nil_iff_forall_not_mem.mpr fields

private theorem isWritten_set (entries : List (String × Value)) :
    IsWritten (.setClause
      (entries.map fun entry => .assignment "n" entry.1 (.parameter (setName entry.1)))) := by
  refine isWritten_of_wellFormed rfl ?_ ?_ (List.forall_mem_nil _)
  · simp [Tree.wellFormed, Tree.allWellFormed_eq_all, Tree.isAssignment, Tree.isExpression]
  · have items : ∀ v ∈ Tree.literalsOfItems
        (entries.map fun entry => .assignment "n" entry.1 (.parameter (setName entry.1))), False := by
      rw [Tree.literalsOfItems_eq_flatMap, List.forall_mem_flatMap, List.forall_mem_map]
      exact fun _ _ => List.forall_mem_nil _
    exact List.eq_nil_iff_forall_not_mem.mpr items

private theorem isWritten_query (call : Call) : ∀ clause ∈ call.query.clauses, IsWritten clause := by
  cases call with
  | find label id =>
    simpa [Call.query, findNodeById] using And.intro (isWritten_selected label) isWritten_return
  | create label properties =>
    simpa [Call.query, createNode] using And.intro (isWritten_create label properties) isWritten_return
  | delete label id detach =>
    simpa [Call.query, deleteNodeById] using
      And.intro (isWritten_selected label) (isWritten_delete ["n"] detach)
  | update label id properties =>
    simpa [Call.query, updateNodeProperties] using
      And.intro (isWritten_selected label) (And.intro (isWritten_set properties.entries) isWritten_return)

private theorem literals_normalForm {clause : Tree} (written : IsWritten clause) :
    clause.normalForm.literals = [] := by
  have none := (Tree.isOfParts_literals (Q := fun _ => False) fun _ => id).keeps_normalClause _ _ written.normal
    (by simp [written.noLiterals])
  exact List.eq_nil_iff_forall_not_mem.mpr none

section NoLiterals

variable {copying : Copying} {q : Query} (noLiterals : ∀ clause ∈ q.clauses, clause.literals = [])
include noLiterals

private theorem isCopyable_iff :
    q.IsCopyable copying ↔ ∀ entry ∈ q.parameters, copying.refusal? entry.2 = none := by
  refine ⟨fun copyable => copyable.parameters, fun accepted => ⟨fun clause member value among => ?_, accepted⟩⟩
  rw [noLiterals clause member] at among
  cases among

private theorem clauses_copied (copying : Copying) : (q.copied copying).clauses = q.clauses := by
  refine (List.map_congr_left fun clause member => ?_).trans (List.map_id' _)
  apply Tree.mapLiterals_eq_self
  rw [noLiterals clause member]
  exact List.forall_mem_nil _

private theorem written_eq {statement : Statement} (made : q.statement = .ok statement)
    (shown : ∀ clause ∈ q.clauses, ∀ v ∈ clause.shownScalars, v = .null) : q.written = .ok statement := by
  refine Query.written_eq_ok_iff.mpr ⟨made, fun clause member v among => ?_⟩
  rw [noLiterals clause member, List.nil_append] at among
  rw [shown clause member v among]
  rfl

end NoLiterals

private theorem exists_sortEntries? (parameters : List (String × Value)) :
    ∃ bound, Value.sortEntries? (named parameters) = some bound := by
  refine ⟨_, Value.sortEntries?_of_texts fun entry member => ?_⟩
  obtain ⟨_, -, rfl⟩ := List.mem_map.mp member
  rfl

private theorem exists_hasText {forms : List Tree} (chars : ∀ form ∈ forms, ∃ cs, form.clauseChars = .ok cs)
    (noLiterals : ∀ form ∈ forms, form.literals = [])
    (shown : ∀ form ∈ forms, ∀ v ∈ form.shownScalars, v = .null) :
    ∃ text, ∀ (copying : Copying) (clauses : List Tree) (parameters : List (String × Value)),
      clauses.mapM Tree.normalClause = .ok forms → (HasText copying ⟨clauses, named parameters⟩ text ↔
        ∀ entry ∈ parameters, copying.refusal? entry.2 = none) := by
  obtain ⟨pieces, written⟩ : ∃ pieces, (Tree.sortClauses forms).mapM Tree.clauseChars = .ok pieces :=
    exists_mapM_eq_ok fun form member => chars form (mem_stableSort.mp member)
  refine ⟨String.ofList (joinChars [' '] pieces), fun copying clauses parameters ran => ?_⟩
  obtain ⟨bound, sorted⟩ := exists_sortEntries? parameters
  have perm := Value.perm_of_sortEntries? sorted
  have normal : Query.normal ⟨clauses, named parameters⟩ = .ok ⟨Tree.sortClauses forms, bound⟩ :=
    Query.normal_eq_ok.mpr ⟨forms, bound, ran, sorted, rfl⟩
  have free : ∀ clause ∈ Tree.sortClauses forms, clause.literals = [] :=
    fun clause member => noLiterals clause (mem_stableSort.mp member)
  have accepted_iff : Query.IsCopyable copying ⟨Tree.sortClauses forms, bound⟩ ↔
      ∀ entry ∈ parameters, copying.refusal? entry.2 = none := by
    rw [isCopyable_iff free, ← List.forall_mem_map (P := fun entry : Value × Value =>
      copying.refusal? entry.2 = none) (f := fun entry : String × Value => (Value.text entry.1, entry.2))]
    exact ⟨fun all entry member => all entry (perm.mem_iff.mpr member),
      fun all entry member => all entry (perm.mem_iff.mp member)⟩
  rw [← accepted_iff]
  constructor
  · rintro ⟨_, -, built⟩
    obtain ⟨n, returned, -⟩ := bind_eq_ok_iff.mp built
    obtain ⟨m, same, copyable, -⟩ := Query.normalCopy_eq_ok_iff.mp returned
    exact Except.ok.inj (normal.symm.trans same) ▸ copyable
  · intro copyable
    have returned := Query.normalCopy_eq_ok_iff.mpr ⟨_, normal, copyable, rfl⟩
    have same := clauses_copied (q := ⟨Tree.sortClauses forms, bound⟩) free copying
    refine ⟨_, perm.map _, bind_eq_ok_iff.mpr ⟨_, returned, written_eq ?_ ?_ ?_⟩⟩
    · rwa [same]
    · rw [Query.statement, same, written]
      rfl
    · rw [same]
      exact fun clause member => shown clause (mem_stableSort.mp member)

section Keys

variable {properties others : Properties}

private theorem sortByText_keys {Item : Type} {g : Item → String} {f : String → Item}
    (keys : ∀ key, key ∈ properties.keys ↔ key ∈ others.keys)
    (injective : Function.Injective fun key => g (f key)) :
    sortByText g (properties.keys.map f) = sortByText g (others.keys.map f) := by
  have perm : properties.keys.Perm others.keys :=
    (List.perm_ext_iff_of_nodup properties.distinct others.distinct).mpr keys
  rw [sortByText_eq_sortByKey, sortByText_eq_sortByKey]
  apply sortByKey_eq_of_perm _ (perm.map f)
  intro a memberA b memberB same
  obtain ⟨keyA, -, rfl⟩ := List.mem_map.mp memberA
  obtain ⟨keyB, -, rfl⟩ := List.mem_map.mp memberB
  exact congrArg f (injective same)

private theorem entryForms_properties (properties : Properties) :
    Tree.entryForms (properties.entries.map fun entry => (entry.1, .parameter entry.1)) =
      properties.keys.map fun key => (key, .parameter key) := by
  rw [Tree.entryForms_eq_map, List.map_map, Properties.keys, List.map_map]
  rfl

private theorem normalForms_assignments (properties : Properties) :
    Tree.normalForms (properties.entries.map fun entry =>
        .assignment "n" entry.1 (.parameter (setName entry.1))) =
      properties.keys.map fun key => .assignment "n" key (.parameter (setName key)) := by
  rw [Tree.normalForms_eq_map, List.map_map, Properties.keys, List.map_map]
  rfl

private theorem target_injective :
    Function.Injective fun key => (Tree.assignment "n" key (.parameter (setName key))).target := by
  intro key other same
  have texts : ("n" ++ "." ++ key).toList = ("n" ++ "." ++ other).toList := congrArg String.toList same
  apply String.toList_inj.mp
  simpa using texts

private theorem normalForm_create (keys : ∀ key, key ∈ properties.keys ↔ key ∈ others.keys)
    (label : String) :
    Tree.normalForms (createNode label properties.entries).clauses =
      Tree.normalForms (createNode label others.entries).clauses := by
  have sorted := sortByText_keys (g := Prod.fst) (f := fun key => (key, Tree.parameter key)) keys
    Function.injective_id
  rw [← entryForms_properties, ← entryForms_properties] at sorted
  simp only [createNode, Build.node, Tree.normalForms, Tree.normalForm, Tree.propertiesForm, sorted]

private theorem normalForm_update (keys : ∀ key, key ∈ properties.keys ↔ key ∈ others.keys)
    (label : String) (id other : Value) :
    Tree.normalForms (updateNodeProperties label id properties.entries).clauses =
      Tree.normalForms (updateNodeProperties label other others.entries).clauses := by
  have sorted := sortByText_keys keys target_injective
  rw [← normalForms_assignments, ← normalForms_assignments] at sorted
  simp only [updateNodeProperties, Tree.normalForms, Tree.normalForm, sorted]

end Keys

private theorem normalForms_eq {call other : Call} (same : call.SameForm other) :
    Tree.normalForms call.query.clauses = Tree.normalForms other.query.clauses := by
  cases same with
  | find | delete => rfl
  | create label keys => exact normalForm_create keys label
  | update label id other keys => exact normalForm_update keys label id other

private theorem normalClauses_eq (call : Call) :
    call.query.clauses.mapM Tree.normalClause = .ok (Tree.normalForms call.query.clauses) := by
  rw [Tree.normalForms_eq_map]
  exact mapM_eq_ok_map fun clause member => (isWritten_query call clause member).1

private theorem exists_parameters (call : Call) :
    ∃ parameters, call.query = ⟨call.query.clauses, named parameters⟩ ∧
      ∀ P : Value → Prop, (∀ entry ∈ parameters, P entry.2) ↔ ∀ v ∈ call.values, P v := by
  cases call with
  | find label id | delete label id detach =>
    exact ⟨[("id", id)], rfl, fun P => by simp [Call.values, Call.id?, Call.entries]⟩
  | create label properties =>
    exact ⟨properties.entries, rfl, fun P => List.forall_mem_map.symm⟩
  | update label id properties =>
    refine ⟨updateParameters id properties.entries, ?_, fun P => ?_⟩
    · rw [← put_id]
      rfl
    · simp only [updateParameters, Call.values, Call.id?, Call.entries, Option.toList_some,
        List.forall_mem_append, List.forall_mem_singleton, List.forall_mem_map, and_comm]

theorem Call.SameForm.refl (call : Call) : call.SameForm call := by
  cases call with
  | find label id => exact .find label id id
  | create label properties => exact .create label fun _ => Iff.rfl
  | delete label id detach => exact .delete label id id detach
  | update label id properties => exact .update label id id fun _ => Iff.rfl

/-- The query of a call uses the parameters that it binds and binds the id and every property of the call.
All calls of one form share a text, and a call is built with it exactly if its values can be copied. -/
theorem isClosed_and_hasText (call : Call) :
    IsClosed call ∧ ∃ text, ∀ other, call.SameForm other → ∀ copying : Copying,
      HasText copying other.query text ↔ ∀ v ∈ other.values, copying.refusal? v = none := by
  constructor
  · cases call with
    | find label id => exact isClosed_find label id
    | create label properties => exact isClosed_create label properties
    | delete label id detach => exact isClosed_delete label id detach
    | update label id properties => exact isClosed_update label id properties
  · have ofForms (P : Tree → Prop) (holds : ∀ clause, IsWritten clause → P clause.normalForm) :
        ∀ form ∈ Tree.normalForms call.query.clauses, P form := by
      rw [Tree.normalForms_eq_map, List.forall_mem_map]
      exact fun clause member => holds clause (isWritten_query call clause member)
    obtain ⟨text, hasText⟩ := exists_hasText (ofForms _ fun _ => IsWritten.chars)
      (ofForms _ fun _ => literals_normalForm) (ofForms _ fun _ => IsWritten.shown)
    refine ⟨text, fun other same copying => ?_⟩
    obtain ⟨parameters, bound, values⟩ := exists_parameters other
    rw [bound, ← values]
    exact hasText copying _ parameters (normalForms_eq same ▸ normalClauses_eq other)

theorem isClosed_and_hasText_marked :
    let call := Call.update "Person" (.int 1) ⟨[("id", .text "a"), ("set_id", .null)], by decide⟩
    let other := Call.update "Person" (.text "$id") ⟨[("set_id", .int 5), ("id", .bool true)], by decide⟩
    call.SameForm other ∧ IsClosed call ∧ ∃ text, HasText (.standard 450) call.query text ∧
      HasText (.standard 450) other.query text := by
  intro call other
  have same : call.SameForm other := by
    apply Call.SameForm.update
    intro key
    simp [Properties.keys, or_comm]
  obtain ⟨closed, text, texts⟩ := isClosed_and_hasText call
  exact ⟨same, closed, text, (texts call (.refl call) _).mpr (by decide),
    (texts other same _).mpr (by decide)⟩

def nested : (levels : Nat) → Value
  | 0 => .null
  | levels + 1 => .list [nested levels]

private theorem nestsWithin_nested (depth levels : Nat) :
    (nested depth).nestsWithin levels = decide (depth ≤ levels) := by
  induction depth generalizing levels with
  | zero => simp [nested, Value.nestsWithin]
  | succ depth ih =>
    rw [nested, Value.nestsWithin, Value.itemsNestWithin, Value.itemsNestWithin, ih, Bool.and_true]
    cases levels <;> simp

/-- A value that is nested too deeply to be copied is in the way of the text that other values have. -/
theorem not_hasText_nested :
    let call := Call.create "P" ⟨[("k", .int 1)], by decide⟩
    let other := Call.create "P" ⟨[("k", nested 600)], by decide⟩
    call.SameForm other ∧
      call.query.writtenBuild (.standard 450) = .ok ⟨"CREATE (n:P \x7bk: $k\x7d) RETURN n", [(.text "k", .int 1)]⟩ ∧
      other.query.writtenBuild (.standard 450) = .error .tooDeep := by
  intro call other
  have same : call.SameForm other := .create "P" fun _ => Iff.rfl
  have copy : call.query.normalCopy (.standard 450) = .ok call.query := by rfl
  have refused : (Copying.standard 450).entry (.text "k", nested 600) = .error .tooDeep := by
    simp only [Copying.entry, Copying.standard, nestsWithin_nested]
    rfl
  refine ⟨same, bind_eq_ok_iff.mpr ⟨_, copy, Query.written_eq_ok_iff.mpr ⟨by rfl, by decide +kernel⟩⟩, ?_⟩
  have clauses : other.query.clauses.mapM (Query.clauseCopy (.standard 450)) = .ok other.query.clauses := by rfl
  have sorted : Value.sortEntries? other.query.parameters = some [(.text "k", nested 600)] := by rfl
  simp only [Query.writtenBuild, Query.normalCopy, clauses, sorted, List.mapM_cons, refused, bind, Except.bind]

end Template

end GraphQuery
