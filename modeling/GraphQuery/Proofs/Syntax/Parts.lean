import GraphQuery.Proofs.Syntax.WellFormed

/-! # The parts of nodes

A node consists of its kind, of the trees in its fields and of data of the caller. `Tree.parts` and
`Tree.rawParts` list the last two under the names of the fields, so that the data and the document
of every node are stated once and not kind by kind. `Tree.induction_on_parts` is induction over
parts.
-/

namespace GraphQuery.Tree

def ofName (s : String) : Tree := .scalar (.text s)

/-- A name that may be absent as the content of a field. -/
def ofName? : Option String → Tree
  | none => .scalar .null
  | some s => ofName s

/-- Properties that may be absent as the content of a field. -/
def ofProperties : Option (List (String × Tree)) → Tree
  | none => .scalar .null
  | some entries => .mapping (entries.map fun entry => (.text entry.1, entry.2))

/-- What the fields of a node hold, apart from data of the caller. -/
def parts : Tree → List (String × Tree)
  | .property subject key => [("variable", ofName subject), ("key", ofName key)]
  | .parameter name => [("name", ofName name)]
  | .binary op left right => [("op", ofName op), ("left", left), ("right", right)]
  | .unary op operand => [("op", ofName op), ("operand", operand)]
  | .call name args => [("name", ofName name), ("args", .tuple args)]
  | .node name labels properties =>
    [("variable", ofName name), ("labels", .tuple (labels.map ofName)),
      ("properties", ofProperties properties)]
  | .relationship direction type name properties =>
    [("direction", ofName direction), ("type", ofName? type), ("variable", ofName? name),
      ("properties", ofProperties properties)]
  | .path elements => [("elements", .tuple elements)]
  | .variableItem name renamed => [("name", ofName name), ("alias", .scalar renamed)]
  | .expressionItem expr renamed => [("expr", expr), ("alias", .scalar renamed)]
  | .assignment subject key value =>
    [("variable", ofName subject), ("key", ofName key), ("value", value)]
  | .orderItem expr direction => [("expr", expr), ("direction", ofName direction)]
  | .matchClause pattern optional => [("pattern", pattern), ("optional", .scalar optional)]
  | .whereClause condition => [("condition", condition)]
  | .createClause pattern => [("pattern", pattern)]
  | .deleteClause names detach =>
    [("variables", .tuple (names.map ofName)), ("detach", .scalar detach)]
  | .setClause assignments => [("assignments", .tuple assignments)]
  | .withClause items => [("expressions", .tuple items)]
  | .returnClause items => [("expressions", .tuple items)]
  | .orderByClause items => [("items", .tuple items)]
  | .skipClause count => [("count", .scalar count)]
  | .limitClause count => [("count", .scalar count)]
  | .query clauses _ => [("clauses", .tuple clauses)]
  | .literal _ | .scalar _ | .tuple _ | .mapping _ => []

/-- The data of the caller in the fields of a node. -/
def rawParts : Tree → List (String × Value)
  | .literal value => [("value", value)]
  | .query _ parameters => [("parameters", .map parameters)]
  | _ => []

/-- The names of all fields of a node, and the name under which its kind stands. -/
theorem nodup_names (t : Tree) :
    ("kind" :: (t.parts.map Prod.fst ++ t.rawParts.map Prod.fst)).Nodup := by
  cases t <;> simp [parts, rawParts]

/-! ## Induction -/

section Induction

variable {motive : Tree → Prop}
  (node : ∀ t, t.kind?.isSome → (∀ part ∈ t.parts, motive part.2) → motive t)
  (scalar : ∀ value, motive (.scalar value))
  (tuple : ∀ items, (∀ item ∈ items, motive item) → motive (.tuple items))
  (mapping : ∀ entries, (∀ entry ∈ entries, motive entry.2) → motive (.mapping entries))
include node scalar tuple mapping

set_option linter.unusedSectionVars false

private theorem induction_name? (s : Option String) : motive (ofName? s) := by
  cases s with
  | none => exact scalar .null
  | some s => exact scalar (.text s)

private theorem induction_names (names : List String) : motive (.tuple (names.map ofName)) := by
  apply tuple
  intro item member
  obtain ⟨s, -, rfl⟩ := List.mem_map.mp member
  exact scalar (.text s)

mutual

/-- Induction over the parts of trees. -/
theorem induction_on_parts : (t : Tree) → motive t
  | .literal _ | .property _ _ | .parameter _ | .variableItem _ _ | .skipClause _ | .limitClause _ => by
    refine node _ rfl ?_
    simp [parts, ofName, scalar]
  | .binary op left right => by
    refine node _ rfl ?_
    simp [parts, ofName, scalar, induction_on_parts left, induction_on_parts right]
  | .unary _ t | .expressionItem t _ | .assignment _ _ t | .orderItem t _ | .matchClause t _
  | .whereClause t | .createClause t => by
    refine node _ rfl ?_
    simp [parts, ofName, scalar, induction_on_parts t]
  | .call _ items | .path items | .setClause items | .withClause items | .returnClause items
  | .orderByClause items | .query items _ => by
    refine node _ rfl ?_
    simpa [parts, ofName, scalar] using tuple items (induction_items items)
  | .node _ labels properties => by
    refine node _ rfl ?_
    simp [parts, ofName, scalar, induction_names node scalar tuple mapping labels,
      induction_properties properties]
  | .relationship _ type name properties => by
    refine node _ rfl ?_
    simp [parts, ofName, scalar, induction_name? node scalar tuple mapping type,
      induction_name? node scalar tuple mapping name, induction_properties properties]
  | .deleteClause names _ => by
    refine node _ rfl ?_
    simp [parts, scalar, induction_names node scalar tuple mapping names]
  | .scalar value => scalar value
  | .tuple items => tuple items (induction_items items)
  | .mapping entries => mapping entries (induction_entries entries)

private theorem induction_items : (items : List Tree) → ∀ item ∈ items, motive item
  | [] => by simp
  | item :: rest => List.forall_mem_cons.mpr ⟨induction_on_parts item, induction_items rest⟩

private theorem induction_entries :
    (entries : List (Value × Tree)) → ∀ entry ∈ entries, motive entry.2
  | [] => by simp
  | (_, t) :: rest => List.forall_mem_cons.mpr ⟨induction_on_parts t, induction_entries rest⟩

private theorem induction_fields :
    (entries : List (String × Tree)) → ∀ entry ∈ entries, motive entry.2
  | [] => by simp
  | (_, t) :: rest => List.forall_mem_cons.mpr ⟨induction_on_parts t, induction_fields rest⟩

private theorem induction_properties :
    (properties : Option (List (String × Tree))) → motive (ofProperties properties)
  | none => scalar .null
  | some entries => by
    apply mapping
    intro entry member
    obtain ⟨original, among, rfl⟩ := List.mem_map.mp member
    exact induction_fields entries original among

end

end Induction

/-! ## Data and documents -/

theorem outlines_eq_map (items : List Tree) : outlines items = items.map outline := by
  induction items with
  | nil => rfl
  | cons item rest ih => rw [outlines, ih, List.map_cons]

theorem outlineFields_eq_map (entries : List (String × Tree)) :
    outlineFields entries = entries.map fun entry => (entry.1, entry.2.outline) := by
  induction entries with
  | nil => rfl
  | cons entry rest ih => rw [outlineFields, ih, List.map_cons]

theorem outlineEntries_eq_map (entries : List (Value × Tree)) :
    outlineEntries entries = entries.map fun entry => (entry.1, entry.2.outline) := by
  induction entries with
  | nil => rfl
  | cons entry rest ih => rw [outlineEntries, ih, List.map_cons]

theorem fieldData_eq_map (fields : List (String × Outline)) :
    Outline.fieldData fields = fields.map fun field => (.text field.1, field.2.toData) := by
  induction fields with
  | nil => rfl
  | cons field rest ih => rw [Outline.fieldData, ih, List.map_cons]

theorem itemData_eq_map (items : List Outline) : Outline.itemData items = items.map Outline.toData := by
  induction items with
  | nil => rfl
  | cons item rest ih => rw [Outline.itemData, ih, List.map_cons]

theorem entryData_eq_map (entries : List (Value × Outline)) :
    Outline.entryData entries = entries.map fun entry => (entry.1, entry.2.toData) := by
  induction entries with
  | nil => rfl
  | cons entry rest ih => rw [Outline.entryData, ih, List.map_cons]

theorem outlines_ofNames (names : List String) :
    outlines (names.map ofName) = names.map .name := by
  rw [outlines_eq_map, List.map_map]
  rfl

theorem outline_ofName? (s : Option String) : (ofName? s).outline = .name? s := by
  cases s <;> rfl

private theorem toData_ofProperties (properties : Option (List (String × Tree))) :
    (ofProperties properties).outline.toData = (outlineProperties properties).toData := by
  cases properties with
  | none => rfl
  | some entries =>
    simp only [ofProperties, outline, outlineProperties, Outline.toData, outlineEntries_eq_map,
      outlineFields_eq_map, entryData_eq_map, fieldData_eq_map, List.map_map, Function.comp_def]

/-- The data of a node: its kind and its fields. -/
theorem toData_outline {t : Tree} {kind : String} (node : t.kind? = some kind) :
    t.outline.toData = Value.object (("kind", .text kind) ::
      (t.parts.map (fun part => (part.1, part.2.outline.toData)) ++
        t.rawParts.map fun part => (part.1, part.2.plain))) := by
  cases t with
  | scalar | tuple | mapping => cases node
  | node | relationship | deleteClause =>
    cases node
    simp only [outline, Outline.toData, Outline.fieldData, parts, rawParts, List.map_cons,
      List.map_nil, List.append_nil, toData_ofProperties, outlines_ofNames, outline_ofName?, ofName,
      Outline.name, Value.object]
  | _ =>
    cases node
    rfl

end GraphQuery.Tree
