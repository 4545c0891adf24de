import GraphQuery.Proofs.Outcome
import GraphQuery.Proofs.Syntax.Parts
import GraphQuery.Value.Entries

/-! # Reading nodes from their fields

An object reads as a node as soon as it names the kind of the node and its fields read as the parts
of the node; in which order the fields come does not matter. Every field of a node is checked by the
reader, and what a well-formed node holds passes the checks.
-/

namespace GraphQuery

namespace Tree

open FieldContent

/-! ## What the checks accept -/

section Accepted

theorem name?_ofName (s : String) : name? (ofName s) = some s := rfl

theorem optionalName?_ofName? (s : Option String) : optionalName? (ofName? s) = some s := by
  cases s <;> rfl

theorem alternative?_scalar {renamed : Value} (isAlias : isAlias renamed = true) :
    alternative? (.scalar renamed) = some renamed := by
  cases renamed <;> first | rfl | cases isAlias

theorem flag?_scalar {flag : Value} (isFlag : isFlag flag = true) :
    flag? (.scalar flag) = some flag := by
  cases flag <;> first | rfl | cases isFlag

theorem count?_scalar {count : Value} (isCount : isCount count = true) :
    count? (.scalar count) = some count := by
  obtain ⟨found, accepted⟩ := Option.isSome_iff_exists.mp isCount
  cases count with
  | int i =>
    rw [count?] at accepted ⊢
    split at accepted
    · rename_i nonnegative
      rw [if_pos nonnegative]
    · cases accepted
  | _ => cases accepted

theorem choice?_ofName {known : String → Bool} {s : String} (isKnown : known s = true) :
    choice? known (ofName s) = some s :=
  if_pos isKnown

theorem tree?_eq_some {belongs : Tree → Bool} {t : Tree} (belonging : belongs t = true) :
    tree? belongs t = some t :=
  if_pos belonging

theorem trees?_tuple {belongs : Tree → Bool} {items : List Tree} (belonging : items.all belongs = true) :
    trees? belongs (.tuple items) = some items :=
  if_pos belonging

theorem names?_ofNames (names : List String) : names? (.tuple (names.map ofName)) = some names := by
  induction names with
  | nil => rfl
  | cons s rest ih =>
    rw [names?, List.map_cons, List.mapM_cons]
    rw [names?] at ih
    rw [ih]
    rfl

theorem properties?_ofProperties {properties : Option (List (String × Tree))}
    (formed : propertiesWellFormed properties = true) :
    properties? (ofProperties properties) = some properties := by
  cases properties with
  | none => rfl
  | some entries =>
    simp only [propertiesWellFormed, entriesWellFormed_eq_all, Bool.and_eq_true, List.all_eq_true]
      at formed
    rw [ofProperties, properties?]
    suffices all : (entries.map fun entry => (Value.text entry.1, entry.2)).mapM property? =
        some entries by rw [all]; rfl
    replace formed := formed.2
    induction entries with
    | nil => rfl
    | cons entry rest ih =>
      obtain ⟨first, others⟩ := List.forall_mem_cons.mp formed
      rw [List.map_cons, List.mapM_cons, ih others, property?, if_pos first.1]
      rfl

theorem parameters?_map {parameters : List (Value × Value)} (formed : areParameters parameters = true) :
    parameters? (.map parameters) = some parameters := by
  rw [areParameters, Bool.and_eq_true, parameters?] at formed
  rw [parameters?]
  split
  · rfl
  · rename_i refused
    rw [if_neg refused] at formed
    cases formed.1

end Accepted

/-! ## From fields to nodes -/

/-- An object holds a node if it names its kind and its other fields read as the parts of the
node. -/
structure Holds (t : Tree) (fields : List (String × Value)) : Prop where
  distinct : (fields.map Prod.fst).Nodup
  kind : ∀ kind, t.kind? = some kind → ("kind", .text kind) ∈ fields
  parts : ∀ part ∈ t.parts, ∃ item, (part.1, item) ∈ fields ∧ ofField item = .ok part.2
  rawParts : ∀ part ∈ t.rawParts, part ∈ fields

/-- An object that names the kind of a node, and then lists what reads as its parts and the data of
the caller in it. -/
theorem Holds.of_parts {t : Tree} {kind : String} (node : t.kind? = some kind)
    {parts : List (String × Tree)} (data : Tree → Value) (result : Tree → Tree)
    (same : t.parts = parts.map fun part => (part.1, result part.2))
    (read : ∀ part ∈ parts, ofField (data part.2) = .ok (result part.2)) :
    t.Holds (("kind", .text kind) ::
      (parts.map (fun part => (part.1, data part.2)) ++ t.rawParts)) where
  distinct := by
    have distinct := nodup_names t
    rw [same] at distinct
    simpa only [List.map_cons, List.map_append, List.map_map, Function.comp_def] using distinct
  kind := by
    intro other named
    obtain rfl := Option.some.inj (node.symm.trans named)
    exact List.mem_cons_self ..
  parts := by
    rw [same, List.forall_mem_map]
    intro part member
    refine ⟨data part.2, List.mem_cons_of_mem _ (List.mem_append_left _ ?_), read part member⟩
    exact List.mem_map.mpr ⟨part, member, rfl⟩
  rawParts := by
    intro part member
    exact List.mem_cons_of_mem _ (List.mem_append_right _ member)

/-- The order of the fields does not matter. -/
theorem Holds.of_perm {t : Tree} {fields others : List (String × Value)} (holds : t.Holds fields)
    (perm : fields.Perm others) : t.Holds others where
  distinct := (perm.map _).nodup_iff.mp holds.distinct
  kind := fun kind named => perm.mem_iff.mp (holds.kind kind named)
  parts := by
    intro part member
    obtain ⟨item, found, read⟩ := holds.parts part member
    exact ⟨item, perm.mem_iff.mp found, read⟩
  rawParts := fun part member => perm.mem_iff.mp (holds.rawParts part member)

theorem ofFieldEntries_eq_map (entries : List (Value × Value)) :
    ofFieldEntries entries = entries.map fun entry => (entry.1, ofField entry.2) := by
  induction entries with
  | nil => rfl
  | cons entry rest ih => rw [ofFieldEntries, ih, List.map_cons]

theorem find?_ofFieldEntries (name : String) (entries : List (Value × Value)) :
    ObjectFields.find? name (ofFieldEntries entries) = (Value.lookup name entries).map ofField := by
  induction entries with
  | nil => rfl
  | cons entry rest ih =>
    obtain ⟨key, item⟩ := entry
    rw [ofFieldEntries, ObjectFields.find?, Value.lookup, ih]
    split <;> rfl

/-- The fields of an object as the reader of nodes sees them. -/
def objectFields (kind : String) (fields : List (String × Value)) : ObjectFields :=
  let entries := fields.map fun field => (.text field.1, field.2)
  ⟨kind, entries, ofFieldEntries entries⟩

namespace Holds

variable {t : Tree} {fields : List (String × Value)} (holds : t.Holds fields)
include holds

/-- A field that the checks accept is found. -/
theorem fetch {kind name : String} {part : Tree} (member : (name, part) ∈ t.parts) {Content : Type}
    {accept : Tree → Option Content} {content : Content} (accepted : accept part = some content) :
    (objectFields kind fields).fetch name accept = .ok (some content) := by
  obtain ⟨item, found, read⟩ := holds.parts _ member
  rw [ObjectFields.fetch, objectFields, find?_ofFieldEntries,
    Value.lookup_of_mem holds.distinct found, Option.map_some, read]
  simp only [accepted]

/-- Reading goes on behind a field that the checks accept. -/
theorem fetch_bind {kind name : String} {part : Tree} (member : (name, part) ∈ t.parts) {Content : Type}
    {accept : Tree → Option Content} {content : Content} (accepted : accept part = some content)
    {next : Option Content → Except DecodeFault Tree} {result : Tree}
    (rest : next (some content) = .ok result) :
    ((objectFields kind fields).fetch name accept >>= next) = .ok result :=
  bind_eq_ok_iff.mpr ⟨_, holds.fetch member accepted, rest⟩

/-- Data of the caller is found as it stands. -/
theorem lookup_raw {name : String} {value : Value} (member : (name, value) ∈ t.rawParts) :
    Value.lookup name (fields.map fun field => (.text field.1, field.2)) = some value :=
  Value.lookup_of_mem holds.distinct (holds.rawParts _ member)

variable {kind : String} (node : t.kind? = some kind) (formed : t.wellFormed = true)
include node formed

theorem expression?_eq (belongs : t.isExpression = true) :
    (objectFields kind fields).expression? = some (.ok t) := by
  cases t <;> cases belongs <;> cases node <;>
    simp only [wellFormed, Bool.and_eq_true, binaryLevel?_isSome, unaryLevel?_isSome] at formed <;>
    apply congrArg some
  case literal value =>
    have raw := holds.lookup_raw (.head _)
    simp only [ObjectFields.literal, ObjectFields.one, objectFields, raw]
  case property =>
    refine fetch_bind holds (.head _) (name?_ofName _) ?_
    refine fetch_bind holds (.tail _ (.head _)) (name?_ofName _) rfl
  case parameter => exact fetch_bind holds (.head _) (name?_ofName _) rfl
  case binary =>
    obtain ⟨⟨⟨⟨known, leftExpression⟩, rightExpression⟩, -⟩, -⟩ := formed
    refine fetch_bind holds (.head _) (choice?_ofName known) ?_
    refine fetch_bind holds (.tail _ (.head _)) (tree?_eq_some leftExpression) ?_
    refine fetch_bind holds (.tail _ (.tail _ (.head _))) (tree?_eq_some rightExpression) rfl
  case unary =>
    obtain ⟨⟨known, expression⟩, -⟩ := formed
    refine fetch_bind holds (.head _) (choice?_ofName known) ?_
    refine fetch_bind holds (.tail _ (.head _)) (tree?_eq_some expression) rfl
  case call =>
    refine fetch_bind holds (.head _) (name?_ofName _) ?_
    refine fetch_bind holds (.tail _ (.head _)) (trees?_tuple formed.1) rfl

theorem pattern?_eq (belongs : t.isPattern = true) :
    (objectFields kind fields).pattern? = some (.ok t) := by
  cases t <;> cases belongs <;> cases node <;>
    simp only [wellFormed, Bool.and_eq_true, arrow?_isSome] at formed <;> apply congrArg some
  case node =>
    refine fetch_bind holds (.head _) (name?_ofName _) ?_
    refine fetch_bind holds (.tail _ (.head _)) (names?_ofNames _) ?_
    refine fetch_bind holds (.tail _ (.tail _ (.head _))) (properties?_ofProperties formed) rfl
  case relationship =>
    refine fetch_bind holds (.head _) (choice?_ofName formed.1) ?_
    refine fetch_bind holds (.tail _ (.head _)) (optionalName?_ofName? _) ?_
    refine fetch_bind holds (.tail _ (.tail _ (.head _))) (optionalName?_ofName? _) ?_
    refine fetch_bind holds (.tail _ (.tail _ (.tail _ (.head _))))
      (properties?_ofProperties formed.2) rfl
  case path => exact fetch_bind holds (.head _) (trees?_tuple formed.1) rfl

theorem item?_eq (belongs : t.isReturnItem || t.isAssignment || t.isOrderItem) :
    (objectFields kind fields).item? = some (.ok t) := by
  cases t <;> cases belongs <;> cases node <;>
    simp only [wellFormed, Bool.and_eq_true] at formed <;> apply congrArg some
  case variableItem =>
    refine fetch_bind holds (.head _) (name?_ofName _) ?_
    refine fetch_bind holds (.tail _ (.head _)) (alternative?_scalar formed) rfl
  case expressionItem =>
    refine fetch_bind holds (.head _) (tree?_eq_some formed.1.1) ?_
    refine fetch_bind holds (.tail _ (.head _)) (alternative?_scalar formed.1.2) rfl
  case assignment =>
    refine fetch_bind holds (.head _) (name?_ofName _) ?_
    refine fetch_bind holds (.tail _ (.head _)) (name?_ofName _) ?_
    refine fetch_bind holds (.tail _ (.tail _ (.head _))) (tree?_eq_some formed.1) rfl
  case orderItem =>
    refine fetch_bind holds (.head _) (tree?_eq_some formed.1.1) ?_
    refine fetch_bind holds (.tail _ (.head _)) (choice?_ofName formed.1.2) rfl

theorem clause?_eq (belongs : t.isClause = true) :
    (objectFields kind fields).clause? = some (.ok t) := by
  cases t <;> cases belongs <;> cases node <;>
    simp only [wellFormed, Bool.and_eq_true] at formed <;> apply congrArg some
  case matchClause =>
    refine fetch_bind holds (.head _) (tree?_eq_some formed.1.1) ?_
    refine fetch_bind holds (.tail _ (.head _)) (flag?_scalar formed.1.2) rfl
  case whereClause | createClause => exact fetch_bind holds (.head _) (tree?_eq_some formed.1) rfl
  case deleteClause =>
    refine fetch_bind holds (.head _) (names?_ofNames _) ?_
    refine fetch_bind holds (.tail _ (.head _)) (flag?_scalar formed) rfl
  case setClause | withClause | returnClause | orderByClause =>
    exact fetch_bind holds (.head _) (trees?_tuple formed.1) rfl
  case skipClause | limitClause => exact fetch_bind holds (.head _) (count?_scalar formed) rfl

/-- The reader of objects finds the node. -/
theorem node?_eq : (objectFields kind fields).node? = some (.ok t) := by
  cases t with
  | scalar | tuple | mapping => cases node
  | literal | property | parameter | binary | unary | call =>
    have found := expression?_eq holds node formed rfl
    cases node
    change (ObjectFields.expression? _ <|> _) = _
    rw [found]
    rfl
  | node | relationship | path =>
    have found := pattern?_eq holds node formed rfl
    cases node
    change (none <|> ObjectFields.pattern? _ <|> _) = _
    rw [found]
    rfl
  | variableItem | expressionItem | assignment | orderItem =>
    have found := item?_eq holds node formed rfl
    cases node
    change (none <|> none <|> ObjectFields.item? _ <|> _) = _
    rw [found]
    rfl
  | matchClause | whereClause | createClause | deleteClause | setClause | withClause | returnClause
  | orderByClause | skipClause | limitClause =>
    have found := clause?_eq holds node formed rfl
    cases node
    change (none <|> none <|> none <|> ObjectFields.clause? _) = _
    rw [found]
    rfl
  | query clauses parameters =>
    cases node
    simp only [wellFormed, Bool.and_eq_true] at formed
    have raw := holds.lookup_raw (.head _)
    refine congrArg some (fetch_bind holds (.head _) (trees?_tuple formed.1.1) ?_)
    simp only [objectFields, raw, parameters?_map formed.1.2, Option.getD_some]

/-- A well-formed node is read from an object that holds it. -/
theorem ofEntries_eq :
    ofEntries (fields.map fun field => (.text field.1, field.2))
      (ofFieldEntries (fields.map fun field => (.text field.1, field.2))) = .ok t := by
  rw [ofEntries, Value.lookup_of_mem holds.distinct (holds.kind kind node)]
  change (objectFields kind fields).node?.getD _ = _
  rw [holds.node?_eq node formed, Option.getD_some]

theorem ofData_eq : ofData (Value.object fields) = .ok t :=
  holds.ofEntries_eq node formed

theorem ofField_eq : ofField (Value.object fields) = .ok t := by
  rw [Value.object, ofField, Value.lookup_of_mem holds.distinct (holds.kind kind node)]
  exact holds.ofEntries_eq node formed

end Holds

/-! ## Lists and objects without a kind -/

theorem ofFieldItems_eq_mapM (items : List Value) : ofFieldItems items = items.mapM ofField := by
  induction items with
  | nil => rfl
  | cons item rest ih => rw [ofFieldItems, ih, List.mapM_cons]; rfl

/-- The entries of an object are read one by one. -/
theorem allEntries_eq_ok_iff {entries : List (Value × Value)} {results : List (Value × Tree)} :
    allEntries (ofFieldEntries entries) = .ok results ↔
      List.Forall₂ (fun entry result => entry.1 = result.1 ∧ ofField entry.2 = .ok result.2)
        entries results := by
  induction entries generalizing results with
  | nil => simp [ofFieldEntries, allEntries, eq_comm]
  | cons entry rest ih =>
    obtain ⟨key, item⟩ := entry
    rw [ofFieldEntries, allEntries, bind_eq_ok_iff]
    constructor
    · rintro ⟨t, read, remaining⟩
      obtain ⟨others, readRest, same⟩ := bind_eq_ok_iff.mp remaining
      obtain rfl : (key, t) :: others = results := by simpa using same
      exact .cons ⟨rfl, read⟩ (ih.mp readRest)
    · rintro (_ | @⟨_, result, _, _, ⟨rfl, read⟩, remaining⟩)
      exact ⟨_, read, bind_eq_ok_iff.mpr ⟨_, ih.mpr remaining, rfl⟩⟩

/-- An object under whose kind no name stands is read entry by entry. -/
theorem ofField_map_eq_ok_iff {entries : List (Value × Value)}
    (anonymous : ∀ kind, Value.lookup "kind" entries ≠ some (.text kind)) {t : Tree} :
    ofField (.map entries) = .ok t ↔ ∃ results, t = .mapping results ∧
      List.Forall₂ (fun entry result => entry.1 = result.1 ∧ ofField entry.2 = .ok result.2)
        entries results := by
  have byEntry : ofField (.map entries) = (allEntries (ofFieldEntries entries)).map .mapping := by
    rw [ofField]
    split
    · rename_i kind found
      exact absurd found (anonymous kind)
    · rfl
  simp only [byEntry, ← allEntries_eq_ok_iff]
  cases allEntries (ofFieldEntries entries) <;> simp [Except.map, eq_comm]

theorem ofField_list_eq_ok_iff {items : List Value} {t : Tree} :
    ofField (.list items) = .ok t ↔ ∃ results, t = .tuple results ∧
      List.Forall₂ (fun item result => ofField item = .ok result) items results := by
  simp only [ofField, ofFieldItems_eq_mapM, ← mapM_eq_ok_iff]
  cases items.mapM ofField <;> simp [Except.map, eq_comm]

end Tree

end GraphQuery
