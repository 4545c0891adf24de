import GraphQuery.Proofs.Syntax.Soundness
import GraphQuery.Syntax.Trusted

/-! # Where the fields of a read node come from

Every field of a node that is read from an object is the field of the object with the same name, and a
field that the object does not have holds the default of the kind.
-/

namespace GraphQuery

namespace Tree

open FieldContent

/-- The data of the fields that a node of a kind has even if nobody gives them. -/
def fieldDefaults : String → List (String × Value)
  | "Function" => [("args", .list [])]
  | "Node" => [("labels", .list []), ("properties", .null)]
  | "Relationship" => [("type", .null), ("variable", .null), ("properties", .null)]
  | "Path" => [("elements", .list [])]
  | "Variable" | "Expression" => [("alias", .null)]
  | "OrderItem" => [("direction", .text "ASC")]
  | "Match" => [("optional", .bool false)]
  | "Delete" => [("detach", .bool false)]
  | "Query" => [("clauses", .list []), ("parameters", .map [])]
  | _ => []

/-! ## The checks keep what they let through -/

/-- What a check lets through is the tree that was checked. -/
def Faithful {Content : Type} (accept : Tree → Option Content) (embed : Content → Tree) : Prop :=
  ∀ t content, accept t = some content → embed content = t

theorem faithful_name? : Faithful name? ofName := by
  intro t content accepted
  unfold name? at accepted
  split at accepted <;> cases accepted
  rfl

theorem faithful_optionalName? : Faithful optionalName? ofName? := by
  intro t content accepted
  unfold optionalName? at accepted
  split at accepted <;> cases accepted <;> rfl

theorem faithful_alternative? : Faithful alternative? .scalar := by
  intro t content accepted
  unfold alternative? at accepted
  split at accepted <;> cases accepted <;> rfl

theorem faithful_flag? : Faithful flag? .scalar := by
  intro t content accepted
  unfold flag? at accepted
  split at accepted <;> cases accepted
  rfl

theorem faithful_count? : Faithful count? .scalar := by
  intro t content accepted
  unfold count? at accepted
  split at accepted
  · rw [Option.ite_none_right_eq_some] at accepted
    obtain ⟨-, same⟩ := accepted
    cases same
    rfl
  · cases accepted

theorem faithful_choice? (known : String → Bool) : Faithful (choice? known) ofName := by
  intro t content accepted
  unfold choice? at accepted
  split at accepted
  · rw [Option.ite_none_right_eq_some] at accepted
    obtain ⟨-, same⟩ := accepted
    cases same
    rfl
  · cases accepted

theorem faithful_tree? (belongs : Tree → Bool) : Faithful (tree? belongs) fun t => t := by
  intro t content accepted
  rw [tree?, Option.ite_none_right_eq_some] at accepted
  exact (Option.some.inj accepted.2).symm

theorem faithful_trees? (belongs : Tree → Bool) : Faithful (trees? belongs) .tuple := by
  intro t content accepted
  unfold trees? at accepted
  split at accepted
  · rw [Option.ite_none_right_eq_some] at accepted
    obtain ⟨-, same⟩ := accepted
    cases same
    rfl
  · cases accepted

theorem faithful_names? : Faithful names? fun names => .tuple (names.map ofName) := by
  intro t names accepted
  unfold names? at accepted
  split at accepted
  · rename_i items
    suffices same : names.map ofName = items from congrArg Tree.tuple same
    induction items generalizing names with
    | nil =>
      cases accepted
      rfl
    | cons item rest ih =>
      simp only [List.mapM_cons, Option.bind_eq_bind, Option.bind_eq_some_iff] at accepted
      obtain ⟨first, acceptedFirst, others, acceptedOthers, same⟩ := accepted
      cases same
      rw [List.map_cons, faithful_name? item first acceptedFirst, ih others acceptedOthers]
  · cases accepted

theorem faithful_properties? : Faithful properties? ofProperties := by
  intro t properties accepted
  unfold properties? at accepted
  split at accepted
  · cases accepted
    rfl
  · rw [Option.map_eq_some_iff] at accepted
    obtain ⟨entries, accepted, rfl⟩ := accepted
    rw [(mapM_property?_eq_some accepted).1, ofProperties]
  · cases accepted

end Tree

namespace ObjectFields

open FieldContent GraphQuery.Tree

/-- A part of a node stands in the field of an object with the same name, or there is no such field and
the part is the default. -/
def StandsIn (fields : ObjectFields) (part : String × Tree) : Prop :=
  find? part.1 fields.decoded = some (.ok part.2) ∨
    find? part.1 fields.decoded = none ∧ (part.1, part.2.outline.toData) ∈ fieldDefaults fields.kind

/-- A node of the kind that an object names, with nothing in its fields but what the object has. -/
structure IsOrigin (fields : ObjectFields) (t : Tree) : Prop where
  kind : t.kind? = some fields.kind
  parts : ∀ part ∈ t.parts, fields.StandsIn part
  rawParts : ∀ part ∈ t.rawParts, Value.lookup part.1 fields.entries = some part.2 ∨
    Value.lookup part.1 fields.entries = none ∧ part ∈ fieldDefaults fields.kind

variable {fields : ObjectFields} {t : Tree}

/-- What is fetched from a field is what stands in it. -/
def IsFetched {Content : Type} (fields : ObjectFields) (name : String) (embed : Content → Tree) :
    Option Content → Prop
  | some content => find? name fields.decoded = some (.ok (embed content))
  | none => find? name fields.decoded = none

theorem fetch_isFetched {Content : Type} {name : String} {accept : Tree → Option Content}
    {embed : Content → Tree} (faithful : Faithful accept embed)
    {next : Option Content → Except DecodeFault Tree} (run : (fields.fetch name accept >>= next) = .ok t) :
    ∃ content, fields.IsFetched name embed content ∧ next content = .ok t := by
  obtain ⟨content, fetched, rest⟩ := bind_eq_ok_iff.mp run
  refine ⟨content, ?_, rest⟩
  rw [fetch] at fetched
  split at fetched
  · rename_i absent
    cases fetched
    exact absent
  · cases fetched
  · rename_i u located
    split at fetched
    · rename_i found accepted
      cases fetched
      rw [IsFetched, located, faithful u found accepted]
    · cases fetched

theorem IsFetched.required {Content : Type} {name : String} {embed : Content → Tree} {content : Content}
    (fetched : fields.IsFetched name embed (some content)) : fields.StandsIn (name, embed content) :=
  .inl fetched

theorem IsFetched.optional {Content : Type} {name : String} {embed : Content → Tree}
    {content : Option Content} (fetched : fields.IsFetched name embed content) (absent : Content)
    (isDefault : (name, (embed absent).outline.toData) ∈ fieldDefaults fields.kind) :
    fields.StandsIn (name, embed (content.getD absent)) := by
  cases content with
  | some found => exact .inl fetched
  | none => exact .inr ⟨fetched, isDefault⟩

/-! ## From objects to nodes -/

private theorem IsOrigin.of_parts {kind : String} (named : t.kind? = some kind) (isKind : fields.kind = kind)
    (parts : t.parts.Forall fields.StandsIn) (noRaw : t.rawParts = []) : fields.IsOrigin t where
  kind := isKind ▸ named
  parts := List.forall_iff_forall_mem.mp parts
  rawParts := by simp [noRaw]

private theorem required_origin {Content : Type} {kind name : String} {accept : Tree → Option Content}
    {embed : Content → Tree} (faithful : Faithful accept embed) {build : Content → Tree}
    (named : ∀ content, (build content).kind? = some kind) (isKind : fields.kind = kind)
    (parts : ∀ content, (build content).parts = [(name, embed content)])
    (noRaw : ∀ content, (build content).rawParts = [])
    (run : (fields.fetch name accept >>= fun content => fields.one name content build) = .ok t) :
    fields.IsOrigin t := by
  obtain ⟨content, fetched, built⟩ := fetch_isFetched faithful run
  obtain ⟨content, rfl, rfl⟩ := one_eq_ok built
  refine .of_parts (named content) isKind ?_ (noRaw content)
  rw [parts]
  exact fetched.required

theorem expression?_origin (found : fields.expression? = some (.ok t)) : fields.IsOrigin t := by
  unfold expression? at found
  split at found <;> first | replace found := Option.some.inj found | cases found
  all_goals rename_i isKind
  · obtain ⟨value, located, rfl⟩ := one_eq_ok found
    exact ⟨by rw [isKind]; rfl, by simp [parts], by simp [Tree.rawParts, located]⟩
  · obtain ⟨subject, subjectIs, found⟩ := fetch_isFetched faithful_name? found
    obtain ⟨key, keyIs, found⟩ := fetch_isFetched faithful_name? found
    obtain ⟨subject, key, rfl, rfl, rfl⟩ := two_eq_ok found
    exact .of_parts rfl isKind (And.intro subjectIs.required keyIs.required) rfl
  · exact required_origin faithful_name? (fun _ => rfl) isKind (fun _ => rfl) (fun _ => rfl) found
  · obtain ⟨op, opIs, found⟩ := fetch_isFetched (faithful_choice? _) found
    obtain ⟨left, leftIs, found⟩ := fetch_isFetched (faithful_tree? _) found
    obtain ⟨right, rightIs, found⟩ := fetch_isFetched (faithful_tree? _) found
    obtain ⟨op, left, right, rfl, rfl, rfl, rfl⟩ := three_eq_ok found
    exact .of_parts rfl isKind (And.intro opIs.required ⟨leftIs.required, rightIs.required⟩) rfl
  · obtain ⟨op, opIs, found⟩ := fetch_isFetched (faithful_choice? _) found
    obtain ⟨operand, operandIs, found⟩ := fetch_isFetched (faithful_tree? _) found
    obtain ⟨op, operand, rfl, rfl, rfl⟩ := two_eq_ok found
    exact .of_parts rfl isKind (And.intro opIs.required operandIs.required) rfl
  · obtain ⟨name, nameIs, found⟩ := fetch_isFetched faithful_name? found
    obtain ⟨args, argsAre, found⟩ := fetch_isFetched (faithful_trees? _) found
    obtain ⟨name, rfl, rfl⟩ := one_eq_ok found
    have argsStand := argsAre.optional [] (by rw [isKind]; exact .head _)
    exact .of_parts rfl isKind (And.intro nameIs.required argsStand) rfl

theorem pattern?_origin (found : fields.pattern? = some (.ok t)) : fields.IsOrigin t := by
  unfold pattern? at found
  split at found <;> first | replace found := Option.some.inj found | cases found
  all_goals rename_i isKind
  · obtain ⟨name, nameIs, found⟩ := fetch_isFetched faithful_name? found
    obtain ⟨labels, labelsAre, found⟩ := fetch_isFetched faithful_names? found
    obtain ⟨properties, propertiesAre, found⟩ := fetch_isFetched faithful_properties? found
    obtain ⟨name, rfl, rfl⟩ := one_eq_ok found
    have labelsStand := labelsAre.optional [] (by rw [isKind]; exact .head _)
    have propertiesStand := propertiesAre.optional none (by rw [isKind]; exact .tail _ (.head _))
    exact .of_parts rfl isKind (And.intro nameIs.required ⟨labelsStand, propertiesStand⟩) rfl
  · obtain ⟨direction, directionIs, found⟩ := fetch_isFetched (faithful_choice? _) found
    obtain ⟨type, typeIs, found⟩ := fetch_isFetched faithful_optionalName? found
    obtain ⟨name, nameIs, found⟩ := fetch_isFetched faithful_optionalName? found
    obtain ⟨properties, propertiesAre, found⟩ := fetch_isFetched faithful_properties? found
    obtain ⟨direction, rfl, rfl⟩ := one_eq_ok found
    have typeStands := typeIs.optional none (by rw [isKind]; exact .head _)
    have nameStands := nameIs.optional none (by rw [isKind]; exact .tail _ (.head _))
    have propertiesStand := propertiesAre.optional none
      (by rw [isKind]; exact .tail _ (.tail _ (.head _)))
    exact .of_parts rfl isKind
      (And.intro directionIs.required ⟨typeStands, nameStands, propertiesStand⟩) rfl
  · obtain ⟨elements, elementsAre, found⟩ := fetch_isFetched (faithful_trees? _) found
    obtain rfl := Except.ok.inj found
    have elementsStand := elementsAre.optional [] (by rw [isKind]; exact .head _)
    exact .of_parts rfl isKind elementsStand rfl

theorem item?_origin (found : fields.item? = some (.ok t)) : fields.IsOrigin t := by
  unfold item? at found
  split at found <;> first | replace found := Option.some.inj found | cases found
  all_goals rename_i isKind
  · obtain ⟨name, nameIs, found⟩ := fetch_isFetched faithful_name? found
    obtain ⟨renamed, renamedIs, found⟩ := fetch_isFetched faithful_alternative? found
    obtain ⟨name, rfl, rfl⟩ := one_eq_ok found
    have renamedStands := renamedIs.optional .null (by rw [isKind]; exact .head _)
    exact .of_parts rfl isKind (And.intro nameIs.required renamedStands) rfl
  · obtain ⟨expr, exprIs, found⟩ := fetch_isFetched (faithful_tree? _) found
    obtain ⟨renamed, renamedIs, found⟩ := fetch_isFetched faithful_alternative? found
    obtain ⟨expr, rfl, rfl⟩ := one_eq_ok found
    have renamedStands := renamedIs.optional .null (by rw [isKind]; exact .head _)
    exact .of_parts rfl isKind (And.intro exprIs.required renamedStands) rfl
  · obtain ⟨subject, subjectIs, found⟩ := fetch_isFetched faithful_name? found
    obtain ⟨key, keyIs, found⟩ := fetch_isFetched faithful_name? found
    obtain ⟨value, valueIs, found⟩ := fetch_isFetched (faithful_tree? _) found
    obtain ⟨subject, key, value, rfl, rfl, rfl, rfl⟩ := three_eq_ok found
    exact .of_parts rfl isKind (And.intro subjectIs.required ⟨keyIs.required, valueIs.required⟩) rfl
  · obtain ⟨expr, exprIs, found⟩ := fetch_isFetched (faithful_tree? _) found
    obtain ⟨direction, directionIs, found⟩ := fetch_isFetched (faithful_choice? _) found
    obtain ⟨expr, rfl, rfl⟩ := one_eq_ok found
    have directionStands := directionIs.optional "ASC" (by rw [isKind]; exact .head _)
    exact .of_parts rfl isKind (And.intro exprIs.required directionStands) rfl

theorem clause?_origin (found : fields.clause? = some (.ok t)) : fields.IsOrigin t := by
  unfold clause? at found
  split at found <;> first | replace found := Option.some.inj found | cases found
  all_goals rename_i isKind
  · obtain ⟨pattern, patternIs, found⟩ := fetch_isFetched (faithful_tree? _) found
    obtain ⟨optional, optionalIs, found⟩ := fetch_isFetched faithful_flag? found
    obtain ⟨pattern, rfl, rfl⟩ := one_eq_ok found
    have optionalStands := optionalIs.optional (.bool false) (by rw [isKind]; exact .head _)
    exact .of_parts rfl isKind (And.intro patternIs.required optionalStands) rfl
  · exact required_origin (faithful_tree? _) (fun _ => rfl) isKind (fun _ => rfl) (fun _ => rfl) found
  · exact required_origin (faithful_tree? _) (fun _ => rfl) isKind (fun _ => rfl) (fun _ => rfl) found
  · obtain ⟨names, namesAre, found⟩ := fetch_isFetched faithful_names? found
    obtain ⟨detach, detachIs, found⟩ := fetch_isFetched faithful_flag? found
    obtain ⟨names, rfl, rfl⟩ := one_eq_ok found
    have detachStands := detachIs.optional (.bool false) (by rw [isKind]; exact .head _)
    exact .of_parts rfl isKind (And.intro namesAre.required detachStands) rfl
  · exact required_origin (faithful_trees? _) (fun _ => rfl) isKind (fun _ => rfl) (fun _ => rfl) found
  · exact required_origin (faithful_trees? _) (fun _ => rfl) isKind (fun _ => rfl) (fun _ => rfl) found
  · exact required_origin (faithful_trees? _) (fun _ => rfl) isKind (fun _ => rfl) (fun _ => rfl) found
  · exact required_origin (faithful_trees? _) (fun _ => rfl) isKind (fun _ => rfl) (fun _ => rfl) found
  · exact required_origin faithful_count? (fun _ => rfl) isKind (fun _ => rfl) (fun _ => rfl) found
  · exact required_origin faithful_count? (fun _ => rfl) isKind (fun _ => rfl) (fun _ => rfl) found

theorem query_origin (isKind : fields.kind = "Query") (found : fields.query = .ok t) :
    fields.IsOrigin t := by
  obtain ⟨clauses, clausesAre, found⟩ := fetch_isFetched (faithful_trees? _) found
  have clausesStand := clausesAre.optional [] (by rw [isKind]; exact .head _)
  split at found
  · rename_i absent
    obtain rfl := Except.ok.inj found
    refine ⟨by rw [isKind]; rfl, by simpa [parts] using clausesStand, ?_⟩
    rw [Tree.rawParts, List.forall_mem_singleton]
    exact .inr ⟨absent, by rw [isKind]; exact .tail _ (.head _)⟩
  · rename_i content located
    split at found
    · rename_i parameters accepted
      obtain rfl := Except.ok.inj found
      have same : content = .map parameters := by
        unfold parameters? at accepted
        split at accepted
        · rw [Option.ite_none_right_eq_some] at accepted
          exact congrArg Value.map (Option.some.inj accepted.2)
        · cases accepted
      refine ⟨by rw [isKind]; rfl, by simpa [parts] using clausesStand, ?_⟩
      rw [Tree.rawParts, List.forall_mem_singleton]
      exact .inl (same ▸ located)
    · cases found

/-- A node that is read from an object has its origin in it. -/
theorem node?_origin (found : fields.node? = some (.ok t)) : fields.IsOrigin t := by
  unfold node? at found
  split at found
  · rename_i isKind
    exact query_origin isKind (Option.some.inj found)
  · simp only [Option.orElse_eq_orElse, Option.orElse_eq_or, Option.or_eq_some_iff] at found
    rcases found with found | ⟨-, found | ⟨-, found | ⟨-, found⟩⟩⟩
    · exact expression?_origin found
    · exact pattern?_origin found
    · exact item?_origin found
    · exact clause?_origin found

end ObjectFields

end GraphQuery
