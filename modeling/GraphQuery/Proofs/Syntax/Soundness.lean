import GraphQuery.Proofs.Syntax.Content
import GraphQuery.Proofs.Syntax.Reading

/-! # What is read can be stored

Whatever a document holds, a node that is read from it passes every check at every depth, and the
data of the caller in it are values of documents.
-/

namespace GraphQuery

namespace Tree

open FieldContent

/-- What reading the content of a field may give: a node that can be stored, any scalar, and lists
and objects of such trees. -/
inductive IsRead : Tree → Prop where
  | node {t : Tree} : t.storable → IsRead t
  | scalar (value : Value) : IsRead (.scalar value)
  | tuple {items : List Tree} : (∀ item ∈ items, IsRead item) → IsRead (.tuple items)
  | mapping {entries : List (Value × Tree)} : (entries.map fun entry => entry.1.asText).Nodup →
    (∀ entry ∈ entries, IsRead entry.2) → IsRead (.mapping entries)

theorem IsRead.wellFormed_of_belongs {t : Tree} (read : t.IsRead) {belongs : Tree → Bool}
    (inner : IsInner belongs) (belonging : belongs t = true) : t.wellFormed := by
  cases read with
  | node storable => exact wellFormed_of_storable storable
  | scalar value => cases (inner.scalar value).symm.trans belonging
  | tuple => cases (inner.tuple _).symm.trans belonging
  | mapping => cases (inner.mapping _).symm.trans belonging

/-! ## What the checks let through -/

/-- A check of fields lets only good contents through. -/
def Admits {Content : Type} (accept : Tree → Option Content) (Good : Content → Prop) : Prop :=
  ∀ t content, t.IsRead → accept t = some content → Good content

theorem admits_tree? {belongs : Tree → Bool} (inner : IsInner belongs) :
    Admits (tree? belongs) fun t => belongs t = true ∧ t.wellFormed = true := by
  intro t found read accepted
  rw [tree?, Option.ite_none_right_eq_some] at accepted
  obtain ⟨belonging, same⟩ := accepted
  cases same
  exact ⟨belonging, read.wellFormed_of_belongs inner belonging⟩

theorem admits_trees? {belongs : Tree → Bool} (inner : IsInner belongs) :
    Admits (trees? belongs) fun items => items.all belongs = true ∧ allWellFormed items = true := by
  intro t found read accepted
  cases t with
  | tuple items =>
    rw [trees?, Option.ite_none_right_eq_some] at accepted
    obtain ⟨belonging, same⟩ := accepted
    cases same
    refine ⟨belonging, ?_⟩
    rw [allWellFormed_eq_all, List.all_eq_true]
    intro item member
    cases read with
    | node storable => cases storable
    | tuple all =>
      exact (all item member).wellFormed_of_belongs inner (List.all_eq_true.mp belonging item member)
  | _ => cases accepted

theorem admits_choice? (known : String → Bool) : Admits (choice? known) fun s => known s = true := by
  intro t found _ accepted
  unfold choice? at accepted
  split at accepted
  · rw [Option.ite_none_right_eq_some] at accepted
    obtain ⟨isKnown, same⟩ := accepted
    cases same
    exact isKnown
  · cases accepted

theorem admits_alternative? : Admits alternative? fun renamed => isAlias renamed = true := by
  intro t found _ accepted
  unfold alternative? at accepted
  split at accepted <;> cases accepted <;> rfl

theorem admits_flag? : Admits flag? fun flag => isFlag flag = true := by
  intro t found _ accepted
  unfold flag? at accepted
  split at accepted <;> cases accepted
  rfl

theorem admits_count? : Admits count? fun count => isCount count = true := by
  intro t found _ accepted
  unfold count? at accepted
  split at accepted
  · rw [Option.ite_none_right_eq_some] at accepted
    obtain ⟨nonnegative, same⟩ := accepted
    cases same
    rw [isCount, count?, if_pos nonnegative]
    rfl
  · cases accepted

/-- Properties are the entries that they are read from. -/
theorem mapM_property?_eq_some {entries : List (Value × Tree)} {found : List (String × Tree)}
    (accepted : entries.mapM property? = some found) :
    entries = found.map (fun entry => (.text entry.1, entry.2)) ∧
      ∀ entry ∈ found, entry.2.isExpression := by
  induction entries generalizing found with
  | nil =>
    cases accepted
    exact ⟨rfl, by simp⟩
  | cons entry rest ih =>
    simp only [List.mapM_cons, Option.bind_eq_bind, Option.bind_eq_some_iff] at accepted
    obtain ⟨first, acceptedFirst, others, acceptedOthers, same⟩ := accepted
    cases same
    obtain ⟨sameRest, expressions⟩ := ih acceptedOthers
    unfold property? at acceptedFirst
    split at acceptedFirst
    · rw [Option.ite_none_right_eq_some] at acceptedFirst
      obtain ⟨expression, same⟩ := acceptedFirst
      cases same
      exact ⟨by rw [List.map_cons, ← sameRest], List.forall_mem_cons.mpr ⟨expression, expressions⟩⟩
    · cases acceptedFirst

theorem admits_properties? :
    Admits properties? fun properties => propertiesWellFormed properties = true := by
  intro t found read accepted
  unfold properties? at accepted
  split at accepted
  · cases accepted
    rfl
  · rw [Option.map_eq_some_iff] at accepted
    obtain ⟨entries, accepted, rfl⟩ := accepted
    obtain ⟨rfl, expressions⟩ := mapM_property?_eq_some accepted
    cases read with
    | node storable => cases storable
    | mapping distinct all =>
      rw [List.map_map] at distinct
      rw [List.forall_mem_map] at all
      rw [propertiesWellFormed, Bool.and_eq_true, decide_eq_true_eq, entriesWellFormed_eq_all,
        List.all_eq_true]
      refine ⟨distinct, fun entry member => ?_⟩
      have expression := expressions entry member
      rw [expression, (all entry member).wellFormed_of_belongs isInner_isExpression expression]
      rfl
  · cases accepted

end Tree

/-! ## From objects to nodes -/

namespace ObjectFields

open FieldContent

/-- The fields of an object come from a document. -/
structure IsSound (fields : ObjectFields) : Prop where
  entries : (Value.map fields.entries).isJson
  decoded : ∀ entry ∈ fields.decoded, ∀ t, entry.2 = .ok t → t.IsRead

theorem mem_of_find? {name : String} {decoded : List (Value × Except DecodeFault Tree)}
    {result : Except DecodeFault Tree} (found : find? name decoded = some result) :
    ∃ key, (key, result) ∈ decoded := by
  induction decoded with
  | nil => cases found
  | cons entry rest ih =>
    obtain ⟨key, other⟩ := entry
    rw [find?] at found
    split at found
    · cases found
      exact ⟨key, List.mem_cons_self ..⟩
    · obtain ⟨key, member⟩ := ih found
      exact ⟨key, List.mem_cons_of_mem _ member⟩

section Kinds

variable {fields : ObjectFields} {t : Tree}

theorem one_eq_ok {Content : Type} {name : String} {content : Option Content} {build : Content → Tree}
    (run : fields.one name content build = .ok t) : ∃ found, content = some found ∧ build found = t := by
  cases content with
  | none => cases run
  | some found => exact ⟨found, rfl, Except.ok.inj run⟩

theorem two_eq_ok {First Second : Type} {firstName secondName : String} {first : Option First}
    {second : Option Second} {build : First → Second → Tree}
    (run : fields.two firstName secondName first second build = .ok t) :
    ∃ a b, first = some a ∧ second = some b ∧ build a b = t := by
  cases first <;> cases second <;> first | exact ⟨_, _, rfl, rfl, Except.ok.inj run⟩ | cases run

theorem three_eq_ok {First Second Third : Type} {firstName secondName thirdName : String}
    {first : Option First} {second : Option Second} {third : Option Third}
    {build : First → Second → Third → Tree}
    (run : fields.three firstName secondName thirdName first second third build = .ok t) :
    ∃ a b c, first = some a ∧ second = some b ∧ third = some c ∧ build a b c = t := by
  cases first <;> cases second <;> cases third <;>
    first | exact ⟨_, _, _, rfl, rfl, rfl, Except.ok.inj run⟩ | cases run

/-- A field that is read may hold anything that its check lets through. -/
theorem fetch_any {Content : Type} {name : String} {accept : Tree → Option Content}
    {next : Option Content → Except DecodeFault Tree} (run : (fields.fetch name accept >>= next) = .ok t) :
    ∃ content, next content = .ok t := by
  obtain ⟨content, -, rest⟩ := bind_eq_ok_iff.mp run
  exact ⟨content, rest⟩

theorem good_getD {Content : Type} {Good : Content → Prop} {content : Option Content} (absent : Content)
    (good : ∀ found, content = some found → Good found) (goodAbsent : Good absent) :
    Good (content.getD absent) := by
  cases content with
  | none => exact goodAbsent
  | some found => exact good found rfl

variable (sound : fields.IsSound)
include sound

/-- A field that is read holds what its check lets through. -/
theorem fetch_sound {Content : Type} {name : String} {accept : Tree → Option Content}
    {Good : Content → Prop} (admits : Tree.Admits accept Good)
    {next : Option Content → Except DecodeFault Tree} (run : (fields.fetch name accept >>= next) = .ok t) :
    ∃ content, (∀ found, content = some found → Good found) ∧ next content = .ok t := by
  obtain ⟨content, fetched, rest⟩ := bind_eq_ok_iff.mp run
  refine ⟨content, ?_, rest⟩
  rintro found rfl
  rw [fetch] at fetched
  split at fetched
  · cases fetched
  · cases fetched
  · rename_i u located
    obtain ⟨key, member⟩ := mem_of_find? located
    have read := sound.decoded _ member u rfl
    split at fetched
    · rename_i accepted
      cases fetched
      exact admits u found read accepted
    · cases fetched

theorem isJson_of_lookup {name : String} {value : Value}
    (found : Value.lookup name fields.entries = some value) : value.isJson :=
  (((Value.isJson_map _).mp sound.entries).2 _ (Value.exists_mem_of_lookup found)).2

open GraphQuery.Tree

/-- A node whose only field is required is well formed if its content is good. -/
theorem required_sound {Content : Type} {name : String} {accept : Tree → Option Content}
    {Good : Content → Prop} (admits : Admits accept Good) {build : Content → Tree}
    (formed : ∀ content, Good content → (build content).wellFormed = true)
    (noQuery : ∀ content, Query.ofTree? (build content) = none)
    (run : (fields.fetch name accept >>= fun content => fields.one name content build) = .ok t) :
    t.storable := by
  obtain ⟨content, good, built⟩ := fetch_sound sound admits run
  obtain ⟨content, rfl, rfl⟩ := one_eq_ok built
  exact storable_of_wellFormed (formed content (good content rfl)) (noQuery content)

theorem expression?_sound (found : fields.expression? = some (.ok t)) : t.storable := by
  unfold expression? at found
  split at found <;> first | replace found := Option.some.inj found | cases found
  · obtain ⟨value, located, rfl⟩ := one_eq_ok found
    exact storable_of_wellFormed (isJson_of_lookup sound located) rfl
  · obtain ⟨subject, found⟩ := fetch_any found
    obtain ⟨key, found⟩ := fetch_any found
    obtain ⟨subject, key, -, -, rfl⟩ := two_eq_ok found
    rfl
  · obtain ⟨name, found⟩ := fetch_any found
    obtain ⟨name, -, rfl⟩ := one_eq_ok found
    rfl
  · obtain ⟨op, isKnown, found⟩ := fetch_sound sound (admits_choice? _) found
    obtain ⟨left, leftGood, found⟩ := fetch_sound sound (admits_tree? isInner_isExpression) found
    obtain ⟨right, rightGood, found⟩ := fetch_sound sound (admits_tree? isInner_isExpression) found
    obtain ⟨op, left, right, rfl, rfl, rfl, rfl⟩ := three_eq_ok found
    refine storable_of_wellFormed ?_ rfl
    simp only [wellFormed, binaryLevel?_isSome, isKnown op rfl, leftGood left rfl, rightGood right rfl,
      Bool.and_self]
  · obtain ⟨op, isKnown, found⟩ := fetch_sound sound (admits_choice? _) found
    obtain ⟨operand, good, found⟩ := fetch_sound sound (admits_tree? isInner_isExpression) found
    obtain ⟨op, operand, rfl, rfl, rfl⟩ := two_eq_ok found
    refine storable_of_wellFormed ?_ rfl
    simp only [wellFormed, unaryLevel?_isSome, isKnown op rfl, good operand rfl, Bool.and_self]
  · obtain ⟨name, found⟩ := fetch_any found
    obtain ⟨args, good, found⟩ := fetch_sound sound (admits_trees? isInner_isExpression) found
    obtain ⟨name, -, rfl⟩ := one_eq_ok found
    have all := good_getD [] good ⟨rfl, rfl⟩
    refine storable_of_wellFormed ?_ rfl
    simp only [wellFormed, all, Bool.and_self]

theorem pattern?_sound (found : fields.pattern? = some (.ok t)) : t.storable := by
  unfold pattern? at found
  split at found <;> first | replace found := Option.some.inj found | cases found
  · obtain ⟨name, found⟩ := fetch_any found
    obtain ⟨labels, found⟩ := fetch_any found
    obtain ⟨properties, good, found⟩ := fetch_sound sound admits_properties? found
    obtain ⟨name, -, rfl⟩ := one_eq_ok found
    exact storable_of_wellFormed (good_getD none good rfl) rfl
  · obtain ⟨direction, isKnown, found⟩ := fetch_sound sound (admits_choice? _) found
    obtain ⟨type, found⟩ := fetch_any found
    obtain ⟨name, found⟩ := fetch_any found
    obtain ⟨properties, good, found⟩ := fetch_sound sound admits_properties? found
    obtain ⟨direction, rfl, rfl⟩ := one_eq_ok found
    have formed := good_getD none good rfl
    refine storable_of_wellFormed ?_ rfl
    simp only [wellFormed, arrow?_isSome, isKnown direction rfl, formed, Bool.and_self]
  · obtain ⟨elements, good, found⟩ := fetch_sound sound (admits_trees? isInner_isPathElement) found
    obtain rfl := Except.ok.inj found
    have all := good_getD [] good ⟨rfl, rfl⟩
    refine storable_of_wellFormed ?_ rfl
    simp only [wellFormed, all, Bool.and_self]

theorem item?_sound (found : fields.item? = some (.ok t)) : t.storable := by
  unfold item? at found
  split at found <;> first | replace found := Option.some.inj found | cases found
  · obtain ⟨name, found⟩ := fetch_any found
    obtain ⟨renamed, good, found⟩ := fetch_sound sound admits_alternative? found
    obtain ⟨name, -, rfl⟩ := one_eq_ok found
    have isAlias := good_getD .null good rfl
    exact storable_of_wellFormed isAlias rfl
  · obtain ⟨expr, exprGood, found⟩ := fetch_sound sound (admits_tree? isInner_isExpression) found
    obtain ⟨renamed, good, found⟩ := fetch_sound sound admits_alternative? found
    obtain ⟨expr, rfl, rfl⟩ := one_eq_ok found
    have isAlias := good_getD .null good rfl
    refine storable_of_wellFormed ?_ rfl
    simp only [wellFormed, exprGood expr rfl, isAlias, Bool.and_self]
  · obtain ⟨subject, found⟩ := fetch_any found
    obtain ⟨key, found⟩ := fetch_any found
    obtain ⟨value, good, found⟩ := fetch_sound sound (admits_tree? isInner_isExpression) found
    obtain ⟨subject, key, value, -, -, rfl, rfl⟩ := three_eq_ok found
    refine storable_of_wellFormed ?_ rfl
    simp only [wellFormed, good value rfl, Bool.and_self]
  · obtain ⟨expr, exprGood, found⟩ := fetch_sound sound (admits_tree? isInner_isExpression) found
    obtain ⟨direction, good, found⟩ := fetch_sound sound (admits_choice? _) found
    obtain ⟨expr, rfl, rfl⟩ := one_eq_ok found
    have isDirection := good_getD "ASC" good rfl
    refine storable_of_wellFormed ?_ rfl
    simp only [wellFormed, exprGood expr rfl, isDirection, Bool.and_self]

theorem clause?_sound (found : fields.clause? = some (.ok t)) : t.storable := by
  unfold clause? at found
  split at found <;> first | replace found := Option.some.inj found | cases found
  · obtain ⟨pattern, patternGood, found⟩ := fetch_sound sound (admits_tree? isInner_isPattern) found
    obtain ⟨optional, good, found⟩ := fetch_sound sound admits_flag? found
    obtain ⟨pattern, rfl, rfl⟩ := one_eq_ok found
    have isFlag := good_getD (.bool false) good rfl
    refine storable_of_wellFormed ?_ rfl
    simp only [wellFormed, patternGood pattern rfl, isFlag, Bool.and_self]
  · refine required_sound sound (admits_tree? isInner_isExpression) (fun condition good => ?_)
      (fun _ => rfl) found
    simp only [wellFormed, good, Bool.and_self]
  · refine required_sound sound (admits_tree? isInner_isPattern) (fun pattern good => ?_)
      (fun _ => rfl) found
    simp only [wellFormed, good, Bool.and_self]
  · obtain ⟨names, found⟩ := fetch_any found
    obtain ⟨detach, good, found⟩ := fetch_sound sound admits_flag? found
    obtain ⟨names, -, rfl⟩ := one_eq_ok found
    have isFlag := good_getD (.bool false) good rfl
    exact storable_of_wellFormed isFlag rfl
  · refine required_sound sound (admits_trees? isInner_isAssignment) (fun assignments good => ?_)
      (fun _ => rfl) found
    simp only [wellFormed, good, Bool.and_self]
  · refine required_sound sound (admits_trees? isInner_isReturnItem) (fun items good => ?_)
      (fun _ => rfl) found
    simp only [wellFormed, good, Bool.and_self]
  · refine required_sound sound (admits_trees? isInner_isReturnItem) (fun items good => ?_)
      (fun _ => rfl) found
    simp only [wellFormed, good, Bool.and_self]
  · refine required_sound sound (admits_trees? isInner_isOrderItem) (fun items good => ?_)
      (fun _ => rfl) found
    simp only [wellFormed, good, Bool.and_self]
  · refine required_sound sound admits_count? (fun count good => ?_) (fun _ => rfl) found
    exact good
  · refine required_sound sound admits_count? (fun count good => ?_) (fun _ => rfl) found
    exact good

omit sound in
private theorem areParameters_of_parameters? {content : Value} {parameters : List (Value × Value)}
    (json : content.isJson) (accepted : parameters? content = some parameters) :
    areParameters parameters = true ∧ (Value.map parameters).isJson := by
  unfold parameters? at accepted
  split at accepted
  · rw [Option.ite_none_right_eq_some] at accepted
    obtain ⟨texts, same⟩ := accepted
    cases same
    exact ⟨areParameters_iff.mpr ⟨List.all_eq_true.mp texts, ((Value.isJson_map _).mp json).1⟩, json⟩
  · cases accepted

theorem query_sound (found : fields.query = .ok t) : t.storable := by
  obtain ⟨clauses, good, found⟩ := fetch_sound sound (admits_trees? isInner_isClause) found
  have all := good_getD [] good ⟨rfl, rfl⟩
  have good {parameters : List (Value × Value)} (formed : areParameters parameters = true)
      (json : (Value.map parameters).isJson) : (Tree.query (clauses.getD []) parameters).storable := by
    simp only [storable, wellFormed, rawParts, List.all_cons, List.all_nil, all, formed, json,
      Bool.and_self]
  split at found
  · obtain rfl := Except.ok.inj found
    exact good rfl rfl
  · rename_i content located
    split at found
    · rename_i parameters accepted
      obtain rfl := Except.ok.inj found
      obtain ⟨formed, json⟩ := areParameters_of_parameters? (isJson_of_lookup sound located) accepted
      exact good formed json
    · cases found

/-- A node that is read from an object can be stored. -/
theorem node?_sound (found : fields.node? = some (.ok t)) : t.storable := by
  unfold node? at found
  split at found
  · exact query_sound sound (Option.some.inj found)
  · simp only [Option.orElse_eq_orElse, Option.orElse_eq_or, Option.or_eq_some_iff] at found
    rcases found with found | ⟨-, found | ⟨-, found | ⟨-, found⟩⟩⟩
    · exact expression?_sound sound found
    · exact pattern?_sound sound found
    · exact item?_sound sound found
    · exact clause?_sound sound found

end Kinds

end ObjectFields

/-! ## From documents to trees -/

namespace Tree

private theorem storable_of_ofEntries {entries : List (Value × Value)} (json : (Value.map entries).isJson)
    (all : ∀ entry ∈ entries, ∀ t, ofField entry.2 = .ok t → t.IsRead) {t : Tree}
    (read : ofEntries entries (ofFieldEntries entries) = .ok t) : t.storable := by
  have decoded : ∀ entry ∈ ofFieldEntries entries, ∀ t, entry.2 = .ok t → t.IsRead := by
    rw [ofFieldEntries_eq_map, List.forall_mem_map]
    exact all
  unfold ofEntries at read
  split at read
  · rename_i kind _
    cases found : ObjectFields.node? ⟨kind, entries, ofFieldEntries entries⟩ with
    | none => simp [found] at read
    | some result =>
      rw [found, Option.getD_some] at read
      rw [read] at found
      exact ObjectFields.node?_sound ⟨json, decoded⟩ found
  · cases read
  · cases read

private theorem isRead_tuple {items : List Value} (all : ∀ item ∈ items, ∀ t, ofField item = .ok t → t.IsRead)
    {t : Tree} (read : ofField (.list items) = .ok t) : t.IsRead := by
  obtain ⟨results, rfl, same⟩ := ofField_list_eq_ok_iff.mp read
  apply IsRead.tuple
  induction same with
  | nil => simp
  | cons first rest ih =>
    obtain ⟨here, others⟩ := List.forall_mem_cons.mp all
    exact List.forall_mem_cons.mpr ⟨here _ first, ih others (ofField_list_eq_ok_iff.mpr ⟨_, rfl, rest⟩)⟩

private theorem isRead_mapping {entries : List (Value × Value)}
    (distinct : (entries.map fun entry => entry.1.asText).Nodup)
    (all : ∀ entry ∈ entries, ∀ t, ofField entry.2 = .ok t → t.IsRead) {results : List (Value × Tree)}
    (same : List.Forall₂ (fun entry result => entry.1 = result.1 ∧ ofField entry.2 = .ok result.2)
      entries results) : (mapping results).IsRead := by
  have keys : entries.map (fun entry => entry.1.asText) = results.map fun entry => entry.1.asText :=
    map_eq_map_iff_forall₂.mpr (same.imp fun _ _ both => congrArg Value.asText both.1)
  refine .mapping (keys ▸ distinct) ?_
  clear keys distinct
  induction same with
  | nil => simp
  | cons first _ ih =>
    obtain ⟨here, others⟩ := List.forall_mem_cons.mp all
    exact List.forall_mem_cons.mpr ⟨here _ first.2, ih others⟩

mutual

/-- What the content of a field of a document reads as. -/
theorem isRead_of_ofField : (v : Value) → v.isJson = true → ∀ t, ofField v = .ok t → t.IsRead
  | .map entries, json, t, read => by
    obtain ⟨distinct, items⟩ := (Value.isJson_map _).mp json
    have all := isRead_of_entries entries fun entry member => (items entry member).2
    unfold ofField at read
    split at read
    · exact .node (storable_of_ofEntries json all read)
    · cases found : allEntries (ofFieldEntries entries) with
      | error => simp [found, Except.map] at read
      | ok results =>
        rw [found] at read
        obtain rfl := Except.ok.inj read
        exact isRead_mapping distinct all (allEntries_eq_ok_iff.mp found)
  | .list items, json, t, read =>
    isRead_tuple (isRead_of_items items ((Value.isJson_list items).mp json)) read
  | .null, _, t, read | .bool _, _, t, read | .int _, _, t, read | .float _, _, t, read
  | .text _, _, t, read => by
    obtain rfl := Except.ok.inj read
    exact .scalar _
  | .tuple _, json, _, _ | .set _ _, json, _, _ | .external _ _, json, _, _ | .entity _, json, _, _
  | .record _, json, _, _ => by simp [Value.isJson] at json

private theorem isRead_of_items : (items : List Value) → (∀ item ∈ items, item.isJson = true) →
    ∀ item ∈ items, ∀ t, ofField item = .ok t → t.IsRead
  | [], _ => by simp
  | item :: rest, json => by
    obtain ⟨first, others⟩ := List.forall_mem_cons.mp json
    exact List.forall_mem_cons.mpr ⟨isRead_of_ofField item first, isRead_of_items rest others⟩

private theorem isRead_of_entries : (entries : List (Value × Value)) →
    (∀ entry ∈ entries, entry.2.isJson = true) →
    ∀ entry ∈ entries, ∀ t, ofField entry.2 = .ok t → t.IsRead
  | [], _ => by simp
  | (_, item) :: rest, json => by
    obtain ⟨first, others⟩ := List.forall_mem_cons.mp json
    exact List.forall_mem_cons.mpr ⟨isRead_of_ofField item first, isRead_of_entries rest others⟩

end

/-- A node that is read from data of a document can be stored. -/
theorem storable_of_ofData {v : Value} (json : v.isJson) {t : Tree} (read : ofData v = .ok t) :
    t.storable := by
  cases v with
  | map entries =>
    exact storable_of_ofEntries json (fun entry member =>
      isRead_of_ofField entry.2 (((Value.isJson_map _).mp json).2 entry member).2) read
  | _ => cases read

end Tree

end GraphQuery
