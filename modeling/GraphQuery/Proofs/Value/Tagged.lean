import GraphQuery.Proofs.Json.Compact
import GraphQuery.Proofs.Json.Sorted
import GraphQuery.Proofs.Value.Identity
import GraphQuery.Value.Entries
import GraphQuery.Value.Throughout

/-! # What tagged forms tell apart

A tagged form is read by `ofTagged`: an object that has the two fields of a tag, with content that fits
the type that it names, is taken for a value of this type. A map of a caller with these two entries is a
disguise, since it has the tagged form of a tuple, a set, a date or another map. Literals without
disguises have equal canonical texts only if they differ in nothing but the order of the entries of maps
and the members of sets.
-/

namespace GraphQuery

def ExternalKind.ofName? : String → Option ExternalKind
  | "date" => some .date
  | "time" => some .time
  | "datetime" => some .datetime
  | "Decimal" => some .decimal
  | _ => none

theorem ExternalKind.ofName?_name (kind : ExternalKind) : ofName? kind.name = some kind := by
  cases kind <;> rfl

namespace Value

/-! ## Values up to order -/

/-- Equality up to the order of the entries of maps and the members of sets. -/
inductive Alike : Value → Value → Prop where
  | refl (v : Value) : Alike v v
  | symm {v w : Value} : Alike v w → Alike w v
  | trans {u v w : Value} : Alike u v → Alike v w → Alike u w
  | entries {entries others : List (Value × Value)} :
    entries.Perm others → Alike (.map entries) (.map others)
  | members (frozen : Bool) {items others : List Value} :
    items.Perm others → Alike (.set frozen items) (.set frozen others)
  | entry (before after : List (Value × Value)) {key otherKey item other : Value} :
    Alike key otherKey → Alike item other →
      Alike (.map (before ++ (key, item) :: after)) (.map (before ++ (otherKey, other) :: after))
  | member (frozen : Bool) (before after : List Value) {item other : Value} :
    Alike item other → Alike (.set frozen (before ++ item :: after)) (.set frozen (before ++ other :: after))
  | listItem (before after : List Value) {item other : Value} :
    Alike item other → Alike (.list (before ++ item :: after)) (.list (before ++ other :: after))
  | tupleItem (before after : List Value) {item other : Value} :
    Alike item other → Alike (.tuple (before ++ item :: after)) (.tuple (before ++ other :: after))

namespace Alike

variable {v w : Value}

theorem typeName_eq (alike : Alike v w) : v.typeName = w.typeName := by
  induction alike with
  | symm _ ih => exact ih.symm
  | trans _ _ first second => exact first.trans second
  | members frozen | member frozen => cases frozen <;> rfl
  | _ => rfl

theorem text?_eq (alike : Alike v w) : v.text? = w.text? := by
  induction alike with
  | symm _ ih => exact ih.symm
  | trans _ _ first second => exact first.trans second
  | _ => rfl

variable {f : Value → Value} {items : List Value}

theorem list_map (related : ∀ item ∈ items, Alike (f item) item) :
    Alike (.list (items.map f)) (.list items) :=
  exchange_map .list refl (fun _ _ _ => trans) (fun before after _ _ => listItem before after) related

theorem tuple_map (related : ∀ item ∈ items, Alike (f item) item) :
    Alike (.tuple (items.map f)) (.tuple items) :=
  exchange_map .tuple refl (fun _ _ _ => trans) (fun before after _ _ => tupleItem before after) related

theorem set_map (frozen : Bool) (related : ∀ item ∈ items, Alike (f item) item) :
    Alike (.set frozen (items.map f)) (.set frozen items) :=
  exchange_map (.set frozen) refl (fun _ _ _ => trans) (fun before after _ _ => member frozen before after) related

theorem map_map {g : Value × Value → Value × Value} {entries : List (Value × Value)}
    (related : ∀ entry ∈ entries, Alike (g entry).1 entry.1 ∧ Alike (g entry).2 entry.2) :
    Alike (.map (entries.map g)) (.map entries) :=
  exchange_map (r := fun entry other => Alike entry.1 other.1 ∧ Alike entry.2 other.2) .map refl
    (fun _ _ _ => trans) (fun before after _ _ both => entry before after both.1 both.2) related

end Alike

/-! ## Reading tagged forms -/

/-- The entry that a list of two items stands for. -/
def pair? : Value → Option (Value × Value)
  | .list [key, item] => some (key, item)
  | _ => none

/-- Whether a list of two items stands for an entry under a text key. -/
def isField : Value → Bool
  | .list [key, _] => key.text?.isSome
  | _ => false

/-- The standard text of an external value with a plain text. -/
def standardOf (kind : ExternalKind) (plainText : String) : String :=
  match kind with
  | .datetime => String.ofList (plainText.toList.map fun c => if c = ' ' then 'T' else c)
  | _ => plainText

/-- The value of the named type that content stands for, if it fits the type. A map with text keys is
not tagged. -/
def ofTag? (typeName : String) : Value → Option Value
  | .list items =>
    match typeName with
    | "tuple" => some (.tuple items)
    | "set" => some (.set false items)
    | "frozenset" => some (.set true items)
    | "dict" =>
      if (items.all fun item => item.pair?.isSome) && !items.all isField then
        some (.map (items.filterMap pair?))
      else none
    | _ => none
  | .text plainText =>
    (ExternalKind.ofName? typeName).map fun kind => .external kind (standardOf kind plainText)
  | _ => none

/-- The value that entries stand for if they are those of a tag. -/
def ofTagEntries? (entries : List (Value × Value)) : Option Value :=
  match entries with
  | [_, _] =>
    match lookup "$type" entries, lookup "value" entries with
    | some (.text typeName), some content => ofTag? typeName content
    | _, _ => none
  | _ => none

mutual

def ofTagged : Json → Value
  | .null => .null
  | .bool b => .bool b
  | .int i => .int i
  | .float x => .float x
  | .text s => .text s
  | .array items => .list (ofTaggedItems items)
  | .object fields => (ofTagEntries? (ofTaggedFields fields)).getD (.map (ofTaggedFields fields))

def ofTaggedItems : List Json → List Value
  | [] => []
  | item :: rest => ofTagged item :: ofTaggedItems rest

/-- The entries of the fields of an object. -/
def ofTaggedFields : List (String × Json) → List (Value × Value)
  | [] => []
  | (name, item) :: rest => (.text name, ofTagged item) :: ofTaggedFields rest

end

/-! ## Literals without disguises -/

/-- Whether a value is a map with the entries of a tag. -/
def isDisguise : Value → Bool
  | .map entries => (ofTagEntries? entries).isSome
  | _ => false

/-- Whether a value is one that a caller can write. The standard text of a time stamp has no blank. -/
def isLiteral : Value → Bool
  | .entity _ | .record _ => false
  | .external .datetime standard => !standard.toList.contains ' '
  | _ => true

/-- Whether a value is a literal without disguises. -/
def isGenuine (v : Value) : Bool :=
  v.throughout fun part => part.isLiteral && !part.isDisguise

theorem isGenuine_list {items : List Value} :
    isGenuine (.list items) = true ↔ ∀ item ∈ items, item.isGenuine = true := by
  simp [isGenuine, throughout, isLiteral, isDisguise, itemsThroughout_eq_all]

theorem isGenuine_tuple {items : List Value} :
    isGenuine (.tuple items) = true ↔ ∀ item ∈ items, item.isGenuine = true := by
  simp [isGenuine, throughout, isLiteral, isDisguise, itemsThroughout_eq_all]

theorem isGenuine_set {frozen : Bool} {items : List Value} :
    isGenuine (.set frozen items) = true ↔ ∀ item ∈ items, item.isGenuine = true := by
  simp [isGenuine, throughout, isLiteral, isDisguise, itemsThroughout_eq_all]

theorem isGenuine_map {entries : List (Value × Value)} :
    isGenuine (.map entries) = true ↔ (ofTagEntries? entries).isSome = false ∧
      ∀ entry ∈ entries, entry.1.isGenuine = true ∧ entry.2.isGenuine = true := by
  simp [isGenuine, throughout, isLiteral, isDisguise, entriesThroughout_eq_all]

/-! ## Like values stand for the same types -/

namespace Alike

variable {v w : Value}

theorem isSome_pair? (alike : Alike v w) : v.pair?.isSome = w.pair?.isSome := by
  have pairs : ∀ items : List Value, (pair? (.list items)).isSome = (items.length == 2) := by
    intro items
    match items with
    | [] | [_] | [_, _] | _ :: _ :: _ :: _ => simp [pair?]
  induction alike with
  | symm _ ih => exact ih.symm
  | trans _ _ first second => exact first.trans second
  | listItem before after => simp [pairs]
  | _ => rfl

theorem isField_eq (alike : Alike v w) : v.isField = w.isField := by
  induction alike with
  | symm _ ih => exact ih.symm
  | trans _ _ first second => exact first.trans second
  | @listItem before after item other same =>
    match before, after with
    | [], [] | [], _ :: _ :: _ | [_], [] | [_], _ :: _ | _ :: _ :: _, _ => simp [isField]
    | [], [_] => simp [isField, same.text?_eq]
  | _ => rfl

theorem isSome_ofTag? (alike : Alike v w) (typeName : String) :
    (ofTag? typeName v).isSome = (ofTag? typeName w).isSome := by
  induction alike with
  | symm _ ih => exact ih.symm
  | trans _ _ first second => exact first.trans second
  | listItem before after same =>
    simp only [ofTag?, List.all_append, List.all_cons, same.isSome_pair?, same.isField_eq]
    split
    · rfl
    · rfl
    · rfl
    · split <;> rfl
    · rfl
  | _ => rfl

end Alike

/-! ## The tagged form of a genuine value is read as a value like it -/

theorem ofTaggedItems_eq_map (items : List Json) : ofTaggedItems items = items.map ofTagged := by
  induction items with
  | nil => rfl
  | cons item rest ih => rw [ofTaggedItems, ih, List.map_cons]

theorem ofTaggedFields_eq_map (fields : List (String × Json)) :
    ofTaggedFields fields = fields.map fun field => (.text field.1, ofTagged field.2) := by
  induction fields with
  | nil => rfl
  | cons field rest ih => rw [ofTaggedFields, ih, List.map_cons]

theorem sorted_tag (typeName : String) (content : Json) :
    (tag typeName content).sorted = tag typeName content.sorted := by
  have before : "$type" ≤ "value" := by decide
  rw [tag, Json.sorted_object, tag]
  simp [Json.sortedFields, Json.sorted, sortByKey, stableSort, insertSorted, before]

theorem ofTagged_tag {typeName : String} {content : Json} {v : Value}
    (fits : ofTag? typeName (ofTagged content) = some v) : ofTagged (tag typeName content) = v := by
  have read : ofTagEntries? [(.text "$type", .text typeName), (.text "value", ofTagged content)] = some v := fits
  rw [tag, ofTagged, ofTaggedFields, ofTaggedFields, ofTaggedFields, ofTagged, read, Option.getD_some]

/-- Entries are those of a tag exactly if they name a type and content that fits it. -/
theorem isSome_ofTagEntries?_iff {entries : List (Value × Value)} :
    (ofTagEntries? entries).isSome = true ↔ ∃ typeName content,
      entries.Perm [(.text "$type", .text typeName), (.text "value", content)] ∧
        (ofTag? typeName content).isSome = true := by
  constructor
  · intro isTag
    match entries with
    | [first, second] =>
      rw [ofTagEntries?] at isTag
      split at isTag
      · rename_i typeName content named held
        refine ⟨typeName, content, ?_, isTag⟩
        have memberName := exists_mem_of_lookup named
        have memberContent := exists_mem_of_lookup held
        simp only [List.mem_cons, List.not_mem_nil, or_false] at memberName memberContent
        rcases memberName with rfl | rfl <;> rcases memberContent with same | same <;>
          first | (subst same) | (simp at same)
        · exact .refl _
        · exact .swap _ _ _
      · cases isTag
    | [] | [_] | _ :: _ :: _ :: _ => cases isTag
  · rintro ⟨typeName, content, perm, fits⟩
    rcases List.perm_pair.mp perm with rfl | rfl <;> exact fits

theorem Alike.eq_text {v : Value} {s : String} (alike : Alike (.text s) v) : v = .text s := by
  have same := alike.text?_eq
  cases v <;> simp_all [text?]

/-- Entries are those of a tag if entries with like items are. -/
theorem isSome_ofTagEntries?_of_perm {f : Value → Value} {entries fields : List (Value × Value)}
    (alike : ∀ entry ∈ entries, Alike (f entry.2) entry.2)
    (perm : fields.Perm (entries.map fun entry => (entry.1, f entry.2)))
    (isTag : (ofTagEntries? fields).isSome = true) : (ofTagEntries? entries).isSome = true := by
  obtain ⟨typeName, content, fieldsPerm, fits⟩ := isSome_ofTagEntries?_iff.mp isTag
  have typed : ∀ {named held : Value}, Alike (f named) named → Alike (f held) held →
      f named = .text typeName → f held = content →
        named = .text typeName ∧ (ofTag? typeName held).isSome = true := by
    rintro named held alikeNamed alikeHeld isName rfl
    exact ⟨(isName ▸ alikeNamed).eq_text, alikeHeld.isSome_ofTag? typeName ▸ fits⟩
  rw [isSome_ofTagEntries?_iff]
  rcases List.perm_pair.mp (perm.symm.trans fieldsPerm) with same | same
  all_goals
    obtain ⟨⟨_, first⟩, rest, rfl, firstSame, restSame⟩ := List.map_eq_cons_iff.mp same
    obtain ⟨⟨_, second⟩, rest, rfl, secondSame, restSame⟩ := List.map_eq_cons_iff.mp restSame
    obtain rfl := List.map_eq_nil_iff.mp restSame
    obtain ⟨rfl, isFirst⟩ := Prod.mk.inj firstSame
    obtain ⟨rfl, isSecond⟩ := Prod.mk.inj secondSame
    simp only [List.forall_mem_cons] at alike
  · obtain ⟨rfl, fits⟩ := typed alike.1 alike.2.1 isFirst isSecond
    exact ⟨typeName, second, .refl _, fits⟩
  · obtain ⟨rfl, fits⟩ := typed alike.2.1 alike.1 isSecond isFirst
    exact ⟨typeName, first, .swap _ _ _, fits⟩

/-! ### Reading each kind of tagged form -/

/-- The value that is read from the sorted tagged form of a value. -/
def reread (v : Value) : Value :=
  ofTagged v.tagged.sorted

theorem taggedItems_eq_map (items : List Value) : taggedItems items = items.map tagged := by
  induction items with
  | nil => rfl
  | cons item rest ih => rw [taggedItems, ih, List.map_cons]

theorem taggedEntries_eq_map (entries : List (Value × Value)) :
    taggedEntries entries = entries.map fun entry => (entry.1.tagged, entry.2.tagged) := by
  induction entries with
  | nil => rfl
  | cons entry rest ih => rw [taggedEntries, ih, List.map_cons]

theorem reread_list (items : List Value) : reread (.list items) = .list (items.map reread) := by
  simp only [reread, tagged, taggedItems_eq_map, Json.sorted, Json.sortedItems_eq_map, ofTagged,
    ofTaggedItems_eq_map, List.map_map]
  rfl

theorem reread_tuple (items : List Value) : reread (.tuple items) = .tuple (items.map reread) := by
  have content : ofTagged (Json.array (taggedItems items)).sorted = .list (items.map reread) :=
    reread_list items
  rw [reread, tagged, sorted_tag]
  apply ofTagged_tag
  rw [content, ofTag?]

theorem reread_set (frozen : Bool) (items : List Value) : ∃ members : List Value,
    members.Perm items ∧ reread (.set frozen items) = .set frozen (members.map reread) := by
  refine ⟨sortByKey (fun item => item.tagged.canonicalText) items, sortByKey_perm _ _, ?_⟩
  have content : ofTagged (Json.array (sortByText Json.canonicalText (taggedItems items))).sorted =
      .list ((sortByKey (fun item => item.tagged.canonicalText) items).map reread) := by
    rw [taggedItems_eq_map, sortByText_eq_sortByKey, sortByKey_map, ← reread_list, reread, tagged,
      taggedItems_eq_map]
  rw [reread, tagged, sorted_tag]
  apply ofTagged_tag
  rw [content]
  cases frozen <;> rfl

theorem standardOf_asText {kind : ExternalKind} {standard : String}
    (literal : isLiteral (.external kind standard) = true) :
    standardOf kind (asText (.external kind standard)) = standard := by
  cases kind with
  | datetime =>
    have noBlank : ' ' ∉ standard.toList := by simpa [isLiteral] using literal
    have kept : standard.toList.map ((fun c => if c = ' ' then 'T' else c) ∘ fun c =>
        if c = 'T' then ' ' else c) = standard.toList := by
      conv_rhs => rw [← List.map_id standard.toList]
      refine List.map_congr_left fun c member => ?_
      have notBlank : c ≠ ' ' := fun blank => noBlank (blank ▸ member)
      by_cases isT : c = 'T' <;> simp [isT, notBlank]
    rw [asText, spacedStamp, standardOf, String.toList_ofList, List.map_map, kept, String.ofList_toList]
  | _ => rfl

theorem reread_external {kind : ExternalKind} {standard : String}
    (literal : isLiteral (.external kind standard) = true) :
    reread (.external kind standard) = .external kind standard := by
  have read : ofTag? kind.name (.text (asText (.external kind standard))) =
      some (.external kind standard) := by
    rw [ofTag?, ExternalKind.ofName?_name, Option.map_some, standardOf_asText literal]
  rw [reread, tagged, sorted_tag]
  exact ofTagged_tag read

theorem reread_map_of_texts {entries : List (Value × Value)}
    (texts : ∀ entry ∈ entries, entry.1.text?.isSome = true) :
    ∃ fields : List (Value × Value), fields.Perm (entries.map fun entry => (entry.1, reread entry.2)) ∧
      reread (.map entries) = (ofTagEntries? fields).getD (.map fields) := by
  refine ⟨(sortByKey (fun entry => entry.1.asText) entries).map fun entry => (entry.1, reread entry.2),
    (sortByKey_perm _ _).map _, ?_⟩
  have read : ofTaggedFields ((sortByKey (fun entry => entry.1.asText) entries).map
      fun entry => (entry.1.asText, entry.2.tagged.sorted)) =
        (sortByKey (fun entry => entry.1.asText) entries).map fun entry => (entry.1, reread entry.2) := by
    rw [ofTaggedFields_eq_map, List.map_map]
    refine List.map_congr_left fun entry member => ?_
    rw [Function.comp_apply, text_asText (texts entry ((sortByKey_perm _ _).mem_iff.mp member)), reread]
  rw [reread, tagged_map texts, Json.sorted_object, Json.sortedFields_eq_map, List.map_map, sortByKey_map,
    ofTagged]
  exact read ▸ rfl

theorem tagged_ne_text {v : Value} (noText : v.text?.isSome = false) (s : String) : v.tagged ≠ .text s := by
  cases v with
  | text => simp [text?] at noText
  | map entries =>
    rw [tagged, ofTaggedEntries]
    split <;> simp [tag]
  | _ => simp [tagged, tag]

theorem fieldsOf?_eq_none {entries : List (Value × Value)}
    (noText : ∃ entry ∈ entries, entry.1.text?.isSome = false) :
    fieldsOf? (taggedEntries entries) = none := by
  induction entries with
  | nil => simp at noText
  | cons entry rest ih =>
    obtain ⟨key, item⟩ := entry
    rw [taggedEntries]
    rcases (List.exists_mem_cons_iff _ _ _).mp noText with first | later
    · cases form : key.tagged with
      | text s => exact absurd form (tagged_ne_text first s)
      | _ => rfl
    · cases key.tagged with
      | text s => rw [fieldsOf?, ih later, Option.map_none]
      | _ => rfl

theorem tagged_map_of_notText {entries : List (Value × Value)}
    (noText : ∃ entry ∈ entries, entry.1.text?.isSome = false) :
    tagged (.map entries) = tag "dict" (.array (sortByText Json.canonicalText
      (entries.map fun entry => .array [entry.1.tagged, entry.2.tagged]))) := by
  rw [tagged, ofTaggedEntries, fieldsOf?_eq_none noText, taggedEntries_eq_map, List.map_map]
  rfl

theorem reread_map_of_notText {entries : List (Value × Value)}
    (noText : ∃ entry ∈ entries, entry.1.text?.isSome = false)
    (kept : ∀ entry ∈ entries, (reread entry.1).text? = entry.1.text?) :
    ∃ others : List (Value × Value), others.Perm entries ∧
      reread (.map entries) = .map (others.map fun entry => (reread entry.1, reread entry.2)) := by
  let others := sortByKey (fun entry => (Json.array [entry.1.tagged, entry.2.tagged]).canonicalText) entries
  have perm : others.Perm entries := sortByKey_perm _ _
  have content : ofTagged (Json.array (sortByText Json.canonicalText
      (entries.map fun entry => .array [entry.1.tagged, entry.2.tagged]))).sorted =
        .list (others.map fun entry => .list [reread entry.1, reread entry.2]) := by
    rw [sortByText_eq_sortByKey, sortByKey_map]
    simp only [Json.sorted, Json.sortedItems_eq_map, ofTagged, ofTaggedItems_eq_map, List.map_map]
    rfl
  have keepsKey : (others.map fun entry => Value.list [reread entry.1, reread entry.2]).all isField = false := by
    obtain ⟨entry, member, isOther⟩ := noText
    rw [← Bool.not_eq_true, List.all_eq_true]
    intro all
    have field := all _ (List.mem_map_of_mem (perm.mem_iff.mpr member))
    rw [isField, kept entry member, isOther] at field
    cases field
  refine ⟨others, perm, ?_⟩
  rw [reread, tagged_map_of_notText noText, sorted_tag]
  apply ofTagged_tag
  rw [content, ofTag?, keepsKey, if_pos (by simp [pair?]), List.filterMap_map]
  simp [Function.comp_def, pair?]

/-! ### Genuine values -/

mutual

/-- What is read from the sorted tagged form of a genuine value is like the value. -/
theorem alike_reread : (v : Value) → v.isGenuine = true → Alike v.reread v
  | .null, _ | .bool _, _ | .int _, _ | .float _, _ | .text _, _ => .refl _
  | .list items, genuine => by
    rw [reread_list]
    exact .list_map (alike_reread_items items (isGenuine_list.mp genuine))
  | .tuple items, genuine => by
    rw [reread_tuple]
    exact .tuple_map (alike_reread_items items (isGenuine_tuple.mp genuine))
  | .set frozen items, genuine => by
    have alike := alike_reread_items items (isGenuine_set.mp genuine)
    obtain ⟨members, perm, read⟩ := reread_set frozen items
    rw [read]
    exact (Alike.set_map frozen fun item member => alike item (perm.mem_iff.mp member)).trans
      (.members frozen perm)
  | .map entries, genuine => by
    obtain ⟨noTag, parts⟩ := isGenuine_map.mp genuine
    have alike := alike_reread_entries entries parts
    by_cases texts : ∀ entry ∈ entries, entry.1.text?.isSome = true
    · obtain ⟨fields, perm, read⟩ := reread_map_of_texts texts
      have noTagFields : ofTagEntries? fields = none := by
        rw [← Option.not_isSome_iff_eq_none]
        intro isTag
        rw [isSome_ofTagEntries?_of_perm (fun entry member => (alike entry member).2) perm isTag] at noTag
        cases noTag
      rw [read, noTagFields, Option.getD_none]
      exact (Alike.entries perm).trans
        (.map_map fun entry member => ⟨.refl _, (alike entry member).2⟩)
    · have noText : ∃ entry ∈ entries, entry.1.text?.isSome = false := by simpa using texts
      obtain ⟨others, perm, read⟩ := reread_map_of_notText noText
        fun entry member => (alike entry member).1.text?_eq
      rw [read]
      exact (Alike.map_map fun entry member => alike entry (perm.mem_iff.mp member)).trans (.entries perm)
  | .external kind standard, genuine => by
    rw [reread_external]
    · exact .refl _
    · simpa [isGenuine, throughout, isDisguise] using genuine
  | .entity _, genuine | .record _, genuine => by simp [isGenuine, throughout, isLiteral] at genuine

private theorem alike_reread_items : (items : List Value) → (∀ item ∈ items, item.isGenuine = true) →
    ∀ item ∈ items, Alike item.reread item
  | [], _ => List.forall_mem_nil _
  | item :: rest, genuine => by
    obtain ⟨first, others⟩ := List.forall_mem_cons.mp genuine
    exact List.forall_mem_cons.mpr ⟨alike_reread item first, alike_reread_items rest others⟩

private theorem alike_reread_entries : (entries : List (Value × Value)) →
    (∀ entry ∈ entries, entry.1.isGenuine = true ∧ entry.2.isGenuine = true) →
    ∀ entry ∈ entries, Alike entry.1.reread entry.1 ∧ Alike entry.2.reread entry.2
  | [], _ => List.forall_mem_nil _
  | (key, item) :: rest, genuine => by
    obtain ⟨⟨ofKey, ofItem⟩, others⟩ := List.forall_mem_cons.mp genuine
    exact List.forall_mem_cons.mpr
      ⟨⟨alike_reread key ofKey, alike_reread item ofItem⟩, alike_reread_entries rest others⟩

end

/-- Genuine values whose tagged forms have one canonical text are alike. -/
theorem alike_of_canonicalText_eq {v w : Value} (genuine : v.isGenuine = true) (other : w.isGenuine = true)
    (same : v.tagged.canonicalText = w.tagged.canonicalText) : Alike v w := by
  have read : v.reread = w.reread := congrArg ofTagged (Json.canonicalText_eq_iff.mp same)
  exact (alike_reread v genuine).symm.trans (read ▸ alike_reread w other)

/-- A map from a date and a pair to a set and a map, with its entries in two orders. -/
def mixed (swapped : Bool) : Value :=
  let first := (external .date "2024-01-01", set false (if swapped then [int 2, int 1] else [int 1, int 2]))
  let second := (tuple [text "a", null], map [(text "$type", text "tuple")])
  .map (if swapped then [second, first] else [first, second])

theorem alike_of_canonicalText_eq_mixed :
    (mixed false).isGenuine = true ∧ (mixed true).isGenuine = true ∧
      (mixed false).tagged.canonicalText = (mixed true).tagged.canonicalText ∧
      Alike (mixed false) (mixed true) := by
  have genuine : ∀ swapped, (mixed swapped).isGenuine = true := by decide
  have same : (mixed false).tagged.canonicalText = (mixed true).tagged.canonicalText := by decide +kernel
  exact ⟨genuine false, genuine true, same, alike_of_canonicalText_eq (genuine false) (genuine true) same⟩

/-- A map with the entries of a tag has the tagged form of a tuple. -/
theorem not_alike_of_disguise :
    isLiteral (.map [(.text "$type", .text "tuple"), (.text "value", .list [.int 1])]) = true ∧
      (tagged (.map [(.text "$type", .text "tuple"), (.text "value", .list [.int 1])])).canonicalText =
        (tagged (.tuple [.int 1])).canonicalText ∧
      ¬Alike (.map [(.text "$type", .text "tuple"), (.text "value", .list [.int 1])]) (.tuple [.int 1]) := by
  refine ⟨rfl, rfl, fun alike => ?_⟩
  have types := alike.typeName_eq
  simp [typeName] at types

end Value

end GraphQuery
