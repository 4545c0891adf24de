import GraphQuery.Proofs.Config.Environment
import GraphQuery.Proofs.Config.Settings
import Mathlib.Data.List.Nodup

/-! # Layers of settings

Settings do not depend on the order of the environment if no path of a variable leads through the text
of another variable. If one does, some order ends with a fault outside the domain:
`Layers.isSteady_iff`. Without such paths each field has what the overrides give it, or else the
environment, or else the file: `Layers.load_layered`.
-/

namespace GraphQuery.Layers

open Value

open Settings (SameOutcome)

/-- Whether the names of variables differ not only in capitals. -/
def NamesDiffer (named : List (String × String)) : Prop :=
  (named.map fun given => Text.lowercase given.1).Nodup

/-- Whether no path of a variable leads through the text of another variable. -/
def Unobstructed (named : List (String × String)) : Prop :=
  ∀ write ∈ writes named, ∀ other ∈ writes named, write.1 <+: other.1 → write.1 = other.1

/-- Whether the environment is read alike in every order: with the same settings, or with faults of
validation that are the same up to the order of entries. -/
def IsSteady (file overrides : List (Value × Value)) (named : List (String × String)) : Prop :=
  ∀ order, named.Perm order → SameOutcome (load (.ok file) named overrides) (load (.ok file) order overrides)

section Orders

variable {named : List (String × String)} {file overrides environment other : List (Value × Value)}

theorem pairwise_apart (differ : NamesDiffer named) (unobstructed : Unobstructed named) :
    (writes named).Pairwise fun write other => Apart write.1 other.1 := by
  have pathsDiffer : (writes named).Pairwise fun write other => write.1 ≠ other.1 := by
    rw [writes, List.pairwise_filterMap]
    refine (List.pairwise_map.mp differ).imp fun {given other} names write counts otherWrite countsOther same => ?_
    obtain ⟨path, found, rfl⟩ := Option.map_eq_some_iff.mp counts
    obtain ⟨otherPath, foundOther, rfl⟩ := Option.map_eq_some_iff.mp countsOther
    obtain rfl : path = otherPath := same
    exact names (lowercase_eq_of_path? found foundOther)
  refine pathsDiffer.imp_of_mem fun {write other} member memberOther different => ⟨fun leads => ?_, fun leads => ?_⟩
  · exact different (unobstructed write member other memberOther leads)
  · exact different (unobstructed other memberOther write member leads).symm

/-- Without paths that lead through others the environment is a layer. -/
theorem exists_shows (differ : NamesDiffer named) (unobstructed : Unobstructed named) :
    ∃ environment, ofEnvironment opening separator named = .ok environment ∧ Shows (writes named) environment := by
  have notEmpty : ∀ write ∈ writes named, write.1 ≠ [] := by
    intro write member
    obtain ⟨name, -, counts⟩ := mem_writes.mp member
    exact path_ne_nil counts
  rw [ofEnvironment_eq]
  exact Shows.nil.assignAll notEmpty (pairwise_apart differ unobstructed)

theorem load_eq (ran : ofEnvironment opening separator named = .ok environment) :
    load (.ok file) named overrides = Settings.ofValue (section? (combine file environment overrides)) := by
  rw [load, ran]
  rfl

theorem map_combine (file environment overrides : List (Value × Value)) :
    Value.map (combine file environment overrides) =
      overlay (some (overlay (some (.map file)) (.map environment))) (.map (ofOverrides overrides)) := by
  rw [overlay_map, overlay_map, combine]

theorem keysDiffer_ofOverrides (differ : (map overrides).KeysDiffer keyName) :
    (map (ofOverrides overrides)).KeysDiffer keyName := by
  rw [ofOverrides]
  split
  · simp [KeysDiffer]
  · simpa [KeysDiffer] using differ

theorem keysDiffer_section {layer : List (Value × Value)} (differ : (map layer).KeysDiffer keyName) :
    (section? layer).KeysDiffer keyName := by
  rw [section?]
  cases found : lookup "neo4j" layer with
  | none => simp [KeysDiffer]
  | some item => exact differ.item (exists_mem_of_lookup found)

theorem Reordered.section {layer other : List (Value × Value)} (same : Matches layer other) :
    Reordered (section? layer) (section? other) := by
  have found := same.lookup "neo4j"
  rw [section?, section?]
  generalize lookup "neo4j" layer = left at found ⊢
  generalize lookup "neo4j" other = right at found ⊢
  cases found with
  | none => exact .refl _
  | some alike => exact alike

/-- The order of the entries of the environment does not matter for the settings that are read. -/
theorem sameOutcome_of_reordered (same : Reordered (.map environment) (.map other))
    (differ : (map environment).KeysDiffer keyName) (differFile : (map file).KeysDiffer keyName)
    (differOverrides : (map overrides).KeysDiffer keyName) :
    SameOutcome (Settings.ofValue (section? (combine file environment overrides)))
      (Settings.ofValue (section? (combine file other overrides))) := by
  have onFile : ∀ v ∈ some (Value.map file), v.KeysDiffer keyName := by
    rintro _ ⟨⟩
    exact differFile
  have base := Reordered.overlay (.some (.refl (.map file))) same onFile differ
  have onBase : ∀ v ∈ some (overlay (some (.map file)) (.map environment)), v.KeysDiffer keyName := by
    rintro _ ⟨⟩
    exact keysDiffer_overlay onFile differ
  have differLast := keysDiffer_ofOverrides differOverrides
  have whole := Reordered.overlay (.some base) (.refl (.map (ofOverrides overrides))) onBase differLast
  have differWhole := keysDiffer_overlay onBase differLast
  rw [← map_combine, ← map_combine] at whole
  rw [← map_combine] at differWhole
  have distinct := distinct_bindings_iff.mpr (Value.keysDiffer_iff.mp (keysDiffer_section differWhole)).1
  exact Settings.sameOutcome_ofValue (Reordered.section (whole.matches differWhole.distinct)) distinct

/-- A path that leads through another one is refused if the other one comes first. -/
theorem exists_order_of_obstructed {write other : List String × String} (member : write ∈ writes named)
    (memberOther : other ∈ writes named) (leads : write.1 <+: other.1) (different : write.1 ≠ other.1) :
    ∃ order cls message, named.Perm order ∧
      ofEnvironment opening separator order = .error (.plain cls message) := by
  obtain ⟨name, among, counts⟩ := mem_writes.mp member
  obtain ⟨otherName, amongOther, countsOther⟩ := mem_writes.mp memberOther
  have apart : (otherName, other.2) ≠ (name, write.2) := by
    intro same
    rw [(Prod.mk.inj same).1, counts] at countsOther
    exact different (Option.some.inj countsOther)
  obtain ⟨rest, perm⟩ : ∃ rest, named.Perm ((name, write.2) :: (otherName, other.2) :: rest) := by
    have behind := (List.mem_erase_of_ne apart).mpr amongOther
    exact ⟨_, (List.perm_cons_erase among).trans ((List.perm_cons_erase behind).cons _)⟩
  obtain ⟨onward, path⟩ := leads
  have onwards : onward ≠ [] := by
    rintro rfl
    exact different (path ▸ (List.append_nil _).symm)
  obtain ⟨entries, cls, message, assigned, blocked⟩ :=
    exists_assign_blocked (path_ne_nil counts) onwards write.2 other.2
  rw [path] at blocked
  refine ⟨_, cls, message, perm, ?_⟩
  have first : writes ((name, write.2) :: (otherName, other.2) :: rest) = write :: other :: writes rest := by
    simp [writes, counts, countsOther]
  rw [ofEnvironment_eq, first, List.foldlM_cons, assigned]
  change (assign other.2 other.1 entries >>= _) = _
  rw [blocked]
  rfl

/-- Settings are read alike in every order exactly if no path leads through the text of another one. -/
theorem isSteady_iff (differ : NamesDiffer named) (differFile : (map file).KeysDiffer keyName)
    (differOverrides : (map overrides).KeysDiffer keyName) :
    IsSteady file overrides named ↔ Unobstructed named := by
  constructor
  · intro steady write member other memberOther leads
    by_contra different
    obtain ⟨order, cls, message, perm, refused⟩ := exists_order_of_obstructed member memberOther leads different
    have outcome := steady order perm
    have ended : load (.ok file) order overrides = .error (.plain cls message) := by
      rw [load, refused]
      rfl
    exact absurd (outcome.isDomain ended) Bool.false_ne_true
  · intro unobstructed order perm
    have differOrder : NamesDiffer order := (perm.map _).nodup_iff.mp differ
    have permWrites : (writes named).Perm (writes order) := perm.filterMap _
    have unobstructedOrder : Unobstructed order := fun write member other memberOther =>
      unobstructed write (permWrites.mem_iff.mpr member) other (permWrites.mem_iff.mpr memberOther)
    obtain ⟨environment, ran, shows⟩ := exists_shows differ unobstructed
    obtain ⟨arranged, ranOrder, showsOrder⟩ := exists_shows differOrder unobstructedOrder
    rw [load_eq ran, load_eq ranOrder]
    exact sameOutcome_of_reordered (shows.reordered showsOrder permWrites) shows.keysDiffer differFile
      differOverrides

end Orders

def textEntries (fields : List (String × String)) : List (Value × Value) :=
  fields.map fun field => (.text field.1, .text field.2)

/-- A section of a file that names a database and a user. -/
def writerSection : List (Value × Value) :=
  textEntries [("url", "bolt://localhost"), ("user", "writer")]

/-- Variables that name a user and a password, among others. -/
def reader : List (String × String) :=
  [("CYPHERGRAPH_NEO4J__USER", "reader"), ("HOME", "/home/reader"), ("CYPHERGRAPH_NEO4J__PASSWORD", "secret")]

def readerSettings : Settings :=
  ⟨"bolt://localhost", "reader", "secret", some "graph", some 30000, some 10, some 3600000⟩

theorem namesDiffer_reader : NamesDiffer reader := by
  unfold NamesDiffer
  decide +kernel

theorem unobstructed_reader : Unobstructed reader := by
  unfold Unobstructed
  decide +kernel

/-- Variables of different fields are read alike in both orders. -/
theorem isSteady_iff_reader :
    load (.ok [(.text "neo4j", .map writerSection)]) reader (textEntries [("database", "graph")]) = .ok readerSettings ∧
      load (.ok [(.text "neo4j", .map writerSection)]) reader.reverse (textEntries [("database", "graph")]) =
        .ok readerSettings := by
  have differFile : (Value.map [(.text "neo4j", .map writerSection)]).KeysDiffer keyName := by
    simp [KeysDiffer, writerSection, textEntries, keyName]
  have differOverrides : (Value.map (textEntries [("database", "graph")])).KeysDiffer keyName := by
    simp [KeysDiffer, textEntries]
  have first : (load (.ok [(.text "neo4j", .map writerSection)]) reader (textEntries [("database", "graph")])).toOption =
      some readerSettings := by decide +kernel
  have steady := (isSteady_iff namesDiffer_reader differFile differOverrides).mpr unobstructed_reader
  have outcome := steady reader.reverse (List.reverse_perm reader).symm
  generalize load _ reader _ = read at first outcome ⊢
  generalize load _ reader.reverse _ = readReversed at outcome ⊢
  cases outcome with
  | accepted settings => rw [Option.some.inj first]; exact ⟨rfl, rfl⟩
  | refused => cases first

/-- Variables of which the second one's path leads through the text of the first one. -/
def obstructed : List (String × String) :=
  [("CYPHERGRAPH_NEO4J", "x"), ("CYPHERGRAPH_NEO4J__URL", "u")]

/-- In one order a text is no mapping, which is a fault of validation; in the other order it cannot hold
the text of a field, which is no fault of the domain. -/
theorem not_isSteady_obstructed : NamesDiffer obstructed ∧
    load (.ok []) obstructed [] = .error (.plain .type "'str' object does not support item assignment") ∧
    load (.ok []) obstructed.reverse [] =
      .error (.validation "config must be a mapping" none (.text "Neo4jConfig") (.text "x")) ∧
    ¬IsSteady [] [] obstructed := by
  have differ : NamesDiffer obstructed := by
    unfold NamesDiffer
    decide +kernel
  have given : writes obstructed = [(["neo4j"], "x"), (["neo4j", "url"], "u")] := by decide +kernel
  have givenReversed : writes obstructed.reverse = [(["neo4j", "url"], "u"), (["neo4j"], "x")] := by
    decide +kernel
  have refused : load (.ok []) obstructed [] =
      .error (.plain .type "'str' object does not support item assignment") := by
    rw [load, ofEnvironment_eq, given]
    rfl
  refine ⟨differ, refused, ?_, fun steady => ?_⟩
  · rw [load, ofEnvironment_eq, givenReversed]
    rfl
  · exact absurd ((steady obstructed (.refl _)).isDomain refused) Bool.false_ne_true

/-! ## Precedence -/

/-- Whether a variable is that of a field of settings: what follows the opening is, but for capitals, the
name of the section, the separator and the name of the field. -/
def isOf (field : String) (given : String × String) : Bool :=
  (Text.after? opening given.1).any fun rest => Text.lowercase rest = "neo4j" ++ separator ++ field

def givenText? (field : String) (named : List (String × String)) : Option String :=
  (named.find? (isOf field)).map Prod.snd

/-- Whether every variable of the section of settings gives a text to a field: none gives one to the whole
section, which would take its place, or below a field, which would make a map of it. -/
def AreFields (named : List (String × String)) : Prop :=
  ∀ write ∈ writes named, write.1.head? = some "neo4j" → write.1.length = 2

/-- Whether entries give each field what the overrides give it, or else its variable, or else the file. -/
structure IsLayered (inFile : List (Value × Value)) (named : List (String × String))
    (overrides entries : List (Value × Value)) : Prop where
  table : IsTable entries
  lookup_eq : ∀ field, lookup field entries =
    (lookup field overrides).or (((givenText? field named).map .text).or (lookup field inFile))

section Precedence

variable {named : List (String × String)} {file inFile overrides : List (Value × Value)} {field : String}

/-- A variable belongs to a field exactly if its path is that of the field. -/
theorem path?_eq_field_iff (fields : AreFields named) {given : String × String} (member : given ∈ named) :
    path? opening separator given.1 = some ["neo4j", field] ↔ isOf field given = true := by
  rw [path?_eq_some_iff, isOf, Option.any_eq_true]
  simp only [Text.after?_eq_some_iff, decide_eq_true_eq]
  constructor
  · rintro ⟨rest, name, split⟩
    exact ⟨rest, name, Text.eq_of_splitBy split.symm⟩
  · rintro ⟨rest, name, small⟩
    have split : Text.splitBy separator (Text.lowercase rest) = "neo4j" :: Text.splitBy separator field := by
      rw [small, separator]
      exact Text.splitBy_append (by decide) field
    have counts := path?_eq_some_iff.mpr ⟨rest, name, rfl⟩
    rw [split] at counts
    -- The name of the field holds no separator, since variables below fields are left out.
    have onField : ("neo4j" :: Text.splitBy separator field, given.2) ∈ writes named :=
      mem_writes.mpr ⟨given.1, member, counts⟩
    obtain ⟨only, single⟩ := List.length_eq_one_iff.mp (Nat.succ.inj (fields _ onField rfl))
    rw [single] at split
    have whole := small.symm.trans (Text.eq_of_splitBy split)
    rw [(String.append_right_inj _).mp whole]
    exact ⟨rest, name, split.symm⟩

theorem givenText?_eq_some_iff (differ : NamesDiffer named) (fields : AreFields named) {s : String} :
    givenText? field named = some s ↔ (["neo4j", field], s) ∈ writes named := by
  rw [givenText?, Option.map_eq_some_iff, mem_writes]
  constructor
  · rintro ⟨given, found, rfl⟩
    have member := List.mem_of_find?_eq_some found
    exact ⟨given.1, member, (path?_eq_field_iff fields member).mpr (List.find?_some found)⟩
  · rintro ⟨name, member, counts⟩
    have belongs := (path?_eq_field_iff fields member).mp counts
    cases found : named.find? (isOf field) with
    | none => exact absurd belongs (List.find?_eq_none.mp found _ member)
    | some given =>
      have memberFirst := List.mem_of_find?_eq_some found
      have countsFirst := (path?_eq_field_iff fields memberFirst).mpr (List.find?_some found)
      have same : given = (name, s) :=
        List.inj_on_of_nodup_map differ memberFirst member (lowercase_eq_of_path? countsFirst counts)
      exact ⟨given, rfl, by rw [same]⟩

/-- What the environment holds for a field is the text of its variable. -/
theorem eq_givenText?_of_holds (differ : NamesDiffer named) (fields : AreFields named) {item : Option Value}
    (holds : Holds (below field (below "neo4j" (writes named))) item) :
    item = (givenText? field named).map .text := by
  have given : ∀ write ∈ below field (below "neo4j" (writes named)),
      givenText? field named = some write.2 ∧ write.1 = [] := by
    intro write member
    have path := mem_below.mp (mem_below.mp member)
    have short := fields _ path rfl
    have empty : write.1 = [] := List.eq_nil_of_length_eq_zero (by simpa using short)
    rw [empty] at path
    exact ⟨(givenText?_eq_some_iff differ fields).mpr path, empty⟩
  generalize atField : below field (below "neo4j" (writes named)) = texts at holds given
  cases holds with
  | nothing =>
    cases text : givenText? field named with
    | none => rfl
    | some s =>
      have path := (givenText?_eq_some_iff differ fields).mp text
      have here : ([], s) ∈ below field (below "neo4j" (writes named)) := mem_below.mpr (mem_below.mpr path)
      rw [atField] at here
      cases here
  | text s =>
    rw [(given _ (List.mem_singleton.mpr rfl)).1]
    rfl
  | entries some longer =>
    obtain ⟨write, member⟩ := List.exists_mem_of_ne_nil _ some
    exact absurd (given write member).2 (longer write member)

/-- The section of settings in the environment holds the texts of its variables. -/
theorem exists_environment (differ : NamesDiffer named) (unobstructed : Unobstructed named)
    (fields : AreFields named) : ∃ environment inEnvironment,
      ofEnvironment opening separator named = .ok environment ∧ Distinct environment ∧ IsTable inEnvironment ∧
        .map inEnvironment = section? environment ∧
          ∀ field, lookup field inEnvironment = (givenText? field named).map .text := by
  obtain ⟨environment, ran, shows⟩ := exists_shows differ unobstructed
  have longer : ∀ write ∈ below "neo4j" (writes named), write.1 ≠ [] := by
    intro write member empty
    have short := fields _ (mem_below.mp member) rfl
    rw [empty] at short
    cases short
  obtain ⟨inEnvironment, found, inside⟩ := shows.exists_inner longer
  exact ⟨environment, inEnvironment, ran, shows.table.distinct, inside.table, found.symm,
    fun field => eq_givenText?_of_holds differ fields (inside.items field)⟩

/-- Laying one layer over another lays the fields over the fields. -/
theorem exists_section_overlay {layer updates inLayer inUpdates : List (Value × Value)}
    (found : .map inLayer = section? layer) (foundUpdates : .map inUpdates = section? updates)
    (distinct : Distinct updates) (table : IsTable inLayer) (tableUpdates : IsTable inUpdates)
    (plain : ∀ field entries, lookup field inUpdates ≠ some (.map entries)) :
    ∃ entries, .map entries = section? (overlayEntries layer updates) ∧ IsTable entries ∧
      ∀ field, lookup field entries = (lookup field inUpdates).or (lookup field inLayer) := by
  rw [section?] at found foundUpdates ⊢
  rw [lookup_overlayEntries distinct]
  cases updated : lookup "neo4j" updates with
  | none =>
    rw [updated] at foundUpdates
    cases foundUpdates
    exact ⟨inLayer, found, table, fun field => rfl⟩
  | some item =>
    rw [updated] at foundUpdates
    cases foundUpdates
    cases standing : lookup "neo4j" layer with
    | none =>
      rw [standing] at found
      cases found
      exact ⟨inUpdates, rfl, tableUpdates, fun field => (Option.or_none).symm⟩
    | some old =>
      rw [standing] at found
      cases found
      refine ⟨overlayEntries inLayer inUpdates, by rw [← overlay_map]; rfl, table.overlayEntries tableUpdates, ?_⟩
      intro field
      rw [lookup_overlayEntries tableUpdates.distinct]
      cases new : lookup field inUpdates with
      | none => rfl
      | some item =>
        have replaced : overlay (lookup field inLayer) item = item := by
          apply overlay_of_notMap
          rintro entries updates - rfl
          exact plain field updates new
        rw [Option.some_or]
        exact congrArg some replaced

theorem section_ofOverrides (overrides : List (Value × Value)) :
    .map overrides = section? (ofOverrides overrides) := by
  rw [ofOverrides]
  split
  · rename_i empty
    rw [List.isEmpty_iff.mp empty]
    rfl
  · rfl

theorem distinct_ofOverrides (overrides : List (Value × Value)) : Distinct (ofOverrides overrides) := by
  rw [ofOverrides]
  split
  · exact List.Pairwise.nil
  · exact List.pairwise_singleton _ _

/-- Each field has what the overrides give it, or else the environment, or else the file, and nothing
else matters for the settings that are read. -/
theorem load_layered (differ : NamesDiffer named) (unobstructed : Unobstructed named) (fields : AreFields named)
    (found : .map inFile = section? file) (tableFile : IsTable inFile) (tableOverrides : IsTable overrides)
    (plain : ∀ field entries, lookup field overrides ≠ some (.map entries)) :
    (∃ entries, IsLayered inFile named overrides entries) ∧
      ∀ entries, IsLayered inFile named overrides entries →
        SameOutcome (load (.ok file) named overrides) (Settings.ofValue (.map entries)) := by
  obtain ⟨environment, inEnvironment, ran, distinct, tableEnvironment, foundEnvironment, texts⟩ :=
    exists_environment differ unobstructed fields
  have plainTexts : ∀ field entries, lookup field inEnvironment ≠ some (.map entries) := by
    intro field entries isMap
    rw [texts, Option.map_eq_some_iff] at isMap
    obtain ⟨s, -, isMap⟩ := isMap
    cases isMap
  -- The environment is laid over the file first, and then the overrides over both.
  obtain ⟨inBase, foundBase, tableBase, base⟩ :=
    exists_section_overlay found foundEnvironment distinct tableFile tableEnvironment plainTexts
  obtain ⟨last, foundLast, tableLast, whole⟩ := exists_section_overlay foundBase (section_ofOverrides overrides)
    (distinct_ofOverrides overrides) tableBase tableOverrides plain
  have layered : IsLayered inFile named overrides last := ⟨tableLast, fun field => by rw [whole, base, texts]⟩
  refine ⟨⟨last, layered⟩, fun entries given => ?_⟩
  have same : Reordered (.map last) (.map entries) := by
    apply tableLast.reordered given.table
    intro field
    rw [layered.lookup_eq, given.lookup_eq]
    exact rel_reordered_self _
  rw [load_eq ran, combine, ← foundLast]
  exact Settings.sameOutcome_ofValue same tableLast.distinct

end Precedence

theorem isTable_textEntries {fields : List (String × String)} (distinct : (fields.map Prod.fst).Nodup) :
    IsTable (textEntries fields) := by
  constructor
  · exact List.forall_mem_map.mpr fun field _ => ⟨field.1, rfl⟩
  · rw [distinct_iff_nodup, textEntries, List.map_map, List.map_map]
    have names := distinct.map (Prod.mk_right_injective true)
    rwa [List.map_map] at names

/-- The password of the overrides comes before that of the environment, and the user of the environment
before that of the file. -/
theorem load_layered_reader :
    SameOutcome (load (.ok [(.text "neo4j", .map writerSection)]) reader (textEntries [("password", "better")]))
      (Settings.ofValue (.map
        (textEntries [("url", "bolt://localhost"), ("user", "reader"), ("password", "better")]))) := by
  have fields : AreFields reader := by
    unfold AreFields
    decide +kernel
  have found : Value.map writerSection = section? [(.text "neo4j", .map writerSection)] := rfl
  have plain : ∀ field entries, lookup field (textEntries [("password", "better")]) ≠ some (.map entries) := by
    intro field entries
    simp only [textEntries, List.map_cons, List.map_nil, lookup]
    split <;> simp
  apply (load_layered namesDiffer_reader unobstructed_reader fields found (isTable_textEntries (by decide))
    (isTable_textEntries (by decide)) plain).2
  refine ⟨isTable_textEntries (by decide), fun field => ?_⟩
  by_cases user : field = "user"
  · subst user
    have text : givenText? "user" reader = some "reader" := by decide +kernel
    simp [text, textEntries, lookup, isText]
  by_cases password : field = "password"
  · subst password
    simp [textEntries, lookup, isText]
  have given : writes reader = [(["neo4j", "user"], "reader"), (["neo4j", "password"], "secret")] := by
    decide +kernel
  have none : givenText? field reader = none := Option.eq_none_iff_forall_ne_some.mpr fun s text => by
    have path := (givenText?_eq_some_iff namesDiffer_reader fields).mp text
    simp [given, user, password] at path
  simp [none, writerSection, textEntries, lookup, isText, Ne.symm user, Ne.symm password]

end GraphQuery.Layers
