import GraphQuery.Config.Settings
import GraphQuery.Proofs.Value.Overlay

/-! # Settings up to the order of entries

Settings are read field by field, and no field is read from what belongs to a value. So values that are
the same up to the order of entries give the same settings, or are refused for the same reasons:
`Settings.sameOutcome_ofValue`.
-/

namespace GraphQuery

open Value

namespace Schema

variable {Content : Type} {check : Value → Checked Content}

/-- Whether a schema takes no notice of what belongs to a value. -/
def IgnoresItems (check : Value → Checked Content) : Prop :=
  ∀ v, check v.shape = check v

theorem IgnoresItems.eq (ignores : IgnoresItems check) {v w : Value} (same : Reordered v w) :
    check v = check w := by
  rw [← ignores v, same.shape_eq, ignores w]

theorem ignoresItems_text : IgnoresItems text := by
  intro v
  cases v <;> rfl

theorem ignoresItems_nonemptyText : IgnoresItems nonemptyText := by
  intro v
  rw [nonemptyText, ignoresItems_text v, nonemptyText]

theorem ignoresItems_positive : IgnoresItems positive := by
  intro v
  cases v <;> rfl

theorem IgnoresItems.nullable (ignores : IgnoresItems check) : IgnoresItems (nullable check) := by
  intro v
  have same := ignores v
  cases v <;> simp_all [Schema.nullable, shape]

variable {entries others : List (Value × Value)} {name : String}

theorem IgnoresItems.field_eq (ignores : IgnoresItems check)
    (same : Option.Rel Reordered (lookup name entries) (lookup name others)) :
    field name check entries = field name check others := by
  rw [field, field]
  generalize lookup name entries = left at same ⊢
  generalize lookup name others = right at same ⊢
  cases same with
  | none => rfl
  | some alike => simp only [ignores.eq alike]

theorem IgnoresItems.fieldOr_eq (ignores : IgnoresItems check) (absent : Content)
    (same : Option.Rel Reordered (lookup name entries) (lookup name others)) :
    fieldOr name absent check entries = fieldOr name absent check others := by
  rw [fieldOr, fieldOr]
  generalize lookup name entries = left at same ⊢
  generalize lookup name others = right at same ⊢
  cases same with
  | none => rfl
  | some alike => simp only [ignores.eq alike]

end Schema

namespace Settings

/-- Whether attempts to read settings end alike: with the same settings, or with faults of validation
that differ at most in the order of the entries that were given. -/
inductive SameOutcome : Except Fault Settings → Except Fault Settings → Prop where
  | accepted (settings : Settings) : SameOutcome (.ok settings) (.ok settings)
  | refused (message : String) (cause : Option Fault) (schema : Value) {given other : Value} :
    Reordered given other →
      SameOutcome (.error (.validation message cause schema given))
        (.error (.validation message cause schema other))

/-- Nothing but a fault of the domain ends a reading like another one. -/
theorem SameOutcome.isDomain {outcome other : Except Fault Settings} (same : SameOutcome outcome other)
    {fault : Fault} (failed : other = .error fault) : fault.isDomain = true := by
  cases same with
  | accepted => cases failed
  | refused => cases failed; rfl

section Outcomes

variable {entries others : List (Value × Value)}

theorem ignoresItems_checkUrl : Schema.IgnoresItems checkUrl := by
  intro v
  rw [checkUrl, Schema.ignoresItems_text v, checkUrl]

/-- Settings depend on what stands in the fields. -/
theorem check_eq (same : ∀ field, Option.Rel Reordered (lookup field entries) (lookup field others)) :
    check entries = check others := by
  have url := ignoresItems_checkUrl.field_eq (same "url")
  have texts := fun field => Schema.ignoresItems_nonemptyText.field_eq (same field)
  have database := Schema.ignoresItems_text.nullable.fieldOr_eq (some standardDatabase) (same "database")
  have numbers := fun field standard =>
    Schema.ignoresItems_positive.nullable.fieldOr_eq (some standard) (same field)
  simp only [check, url, texts, database, numbers]

/-- The order of entries does not matter for settings, nor for the reasons why they are refused. -/
theorem sameOutcome_ofValue {v w : Value} (same : Reordered v w) (distinct : Distinct v.bindings) :
    SameOutcome (ofValue v) (ofValue w) := by
  by_cases isMap : ∃ entries, v = .map entries
  · obtain ⟨entries, rfl⟩ := isMap
    obtain ⟨others, rfl⟩ := same.exists_map
    have distinctOthers : Distinct others := same.distinct_iff.mp distinct
    have found : Matches entries others := same.matches distinct
    have left : Reordered (.map (without "password" entries)) (.map (without "password" others)) :=
      reordered_of_matches (distinct_without distinct _) (distinct_without distinctOthers _)
        (found.without "password")
    rw [ofValue, ofValue, check_eq found.lookup]
    cases check others with
    | ok settings => exact .accepted settings
    | error issues => exact .refused _ _ _ left
  · have refused : ∀ v : Value, (¬∃ entries, v = .map entries) →
        ofValue v = .error (.validation "config must be a mapping" none (.text schemaName) v) := by
      intro v notMap
      cases v with
      | map entries => exact absurd ⟨entries, rfl⟩ notMap
      | _ => rfl
    have notMap : ¬∃ others, w = .map others := by
      rintro ⟨others, rfl⟩
      exact isMap same.symm.exists_map
    rw [refused v isMap, refused w notMap]
    exact .refused _ _ _ same

end Outcomes

end Settings

end GraphQuery
