import GraphQuery.Proofs.Config.Layers
import GraphQuery.Proofs.Outcome
import GraphQuery.Proofs.Value.Hidden

/-! # Settings with another password

Whether settings are accepted does not depend on what the password is, as long as there is one, and
nothing that is reported about refused settings does. So two readings with different passwords are
compared: each layer, and each step of reading it, keeps it that they differ in the password alone, and
`Layers.alikeButPassword_load` says it of the whole.
-/

namespace GraphQuery

open Value

theorem Schema.nonemptyText_text {s : String} (some : s ≠ "") : nonemptyText (.text s) = .ok s := by
  simp [nonemptyText, text, some]

namespace Settings

/-- Whether settings are the same but for the password. -/
def SameButPassword (settings other : Settings) : Prop :=
  { settings with password := other.password } = other

theorem SameButPassword.refl (settings : Settings) : SameButPassword settings settings :=
  rfl

section Fields

variable {entries others : List (Value × Value)} {v w : Value}

/-- A password that is not empty is read as it is, and the same password is read alike. -/
theorem password_alike (same : EntriesSameBut (SameBut []) "password" entries others) :
    Schema.field "password" Schema.nonemptyText entries = Schema.field "password" Schema.nonemptyText others ∨
      ∃ s t, Schema.field "password" Schema.nonemptyText entries = .ok s ∧
        Schema.field "password" Schema.nonemptyText others = .ok t := by
  have found := same.rel_lookup
  rw [Schema.field, Schema.field]
  generalize Value.lookup "password" entries = left at found ⊢
  generalize Value.lookup "password" others = right at found ⊢
  cases found with
  | none => exact .inl rfl
  | some items =>
    rcases items with rfl | ⟨s, t, someText, someOther, rfl, rfl⟩
    · exact .inl rfl
    · dsimp only
      rw [Schema.nonemptyText_text someText, Schema.nonemptyText_text someOther]
      exact .inr ⟨s, t, rfl, rfl⟩

/-- Fields other than the password are read alike, so the same issues are reported in the same order. -/
theorem endAlike_check (same : EntriesSameBut (SameBut []) "password" entries others) :
    EndAlike SameButPassword (check entries) (check others) := by
  have kept (field : String) (other : field ≠ "password") :
      Value.lookup field entries = Value.lookup field others := same.lookup_eq other
  have url : Schema.field "url" checkUrl entries = Schema.field "url" checkUrl others := by
    rw [Schema.field, kept "url" (by decide), Schema.field]
  have user : Schema.field "user" Schema.nonemptyText entries = Schema.field "user" Schema.nonemptyText others := by
    rw [Schema.field, kept "user" (by decide), Schema.field]
  have optional {Content : Type} (field : String) (other : field ≠ "password") (absent : Content)
      (reads : Value → Checked Content) :
      Schema.fieldOr field absent reads entries = Schema.fieldOr field absent reads others := by
    rw [Schema.fieldOr, kept field other, Schema.fieldOr]
  rw [check, check]
  simp only [url, user, optional "database" (by decide), optional "default_timeout_ms" (by decide),
    optional "connection_pool_size" (by decide), optional "max_connection_lifetime_ms" (by decide)]
  rcases password_alike same with equal | ⟨s, t, first, second⟩
  · rw [equal]
    exact .refl SameButPassword.refl _
  · rw [first, second]
    generalize Schema.field "url" checkUrl others = url
    generalize Schema.field "user" Schema.nonemptyText others = user
    generalize Schema.fieldOr "database" _ _ others = database
    generalize Schema.fieldOr "default_timeout_ms" _ _ others = timeout
    generalize Schema.fieldOr "connection_pool_size" _ _ others = poolSize
    generalize Schema.fieldOr "max_connection_lifetime_ms" _ _ others = lifetime
    -- The first field that is refused decides that there are no settings, whatever the fields behind it are.
    rcases url with _ | url
    · exact .error _
    rcases user with _ | user
    · exact .error _
    rcases database with _ | database
    · exact .error _
    rcases timeout with _ | timeout
    · exact .error _
    rcases poolSize with _ | poolSize
    · exact .error _
    rcases lifetime with _ | lifetime
    · exact .error _
    exact .ok rfl

/-- Values that differ in the password are read alike, and a fault shows the entries without it. -/
theorem endAlike_ofValue (same : SameBut ["password"] v w) : EndAlike SameButPassword (ofValue v) (ofValue w) := by
  rcases same with rfl | ⟨entries, others, rfl, rfl, same⟩
  · exact .refl SameButPassword.refl _
  · have left : rejected entries = rejected others := by
      funext issues
      rw [rejected, same.without_eq, rejected]
    have ended := endAlike_check same
    rw [ofValue, ofValue, left]
    generalize check entries = read at ended ⊢
    generalize check others = readOther at ended ⊢
    cases ended with
    | ok settings => exact .ok settings
    | error issues => exact .error _

end Fields

end Settings

namespace Layers

def passwordPath : List String := ["neo4j", "password"]

/-- Whether layers are the same but for a password that is empty in neither. -/
def SameButPassword (layer other : List (Value × Value)) : Prop :=
  SameBut passwordPath (.map layer) (.map other)

/-- Whether variables are the same, or give the password texts that are not empty. -/
def GivenAlike (given other : String × String) : Prop :=
  given.1 = other.1 ∧
    (given.2 = other.2 ∨ path? opening separator given.1 = some passwordPath ∧ given.2 ≠ "" ∧ other.2 ≠ "")

section Passwords

variable {entries others : List (Value × Value)} {path secret : List String} {name s t : String}

theorem SameButPassword.refl (layer : List (Value × Value)) : SameButPassword layer layer :=
  SameBut.refl _ _

/-- What becomes of what stands under a name when a text is given to a path that goes on from there. -/
def placed (s : String) : (path : List String) → Value → Except Fault Value
  | [], _ => .ok (.text s)
  | name :: rest, .map inner => (assign s (name :: rest) inner).map .map
  | name :: rest, _ => .error (blocked (name :: rest))

/-- Giving a text to a path changes what stands under its first name, and nothing else. -/
theorem assign_cons (s name : String) (rest : List String) (entries : List (Value × Value)) :
    assign s (name :: rest) entries =
      (placed s rest ((lookup name entries).getD (.map []))).map fun item => putEntry (.text name) item entries := by
  cases rest with
  | nil => rfl
  | cons second rest =>
    have composed (inner : List (Value × Value)) :
        (assign s (second :: rest) inner).map (fun changed => putEntry (.text name) (.map changed) entries) =
          (placed s (second :: rest) (.map inner)).map fun item => putEntry (.text name) item entries := by
      rw [placed]
      cases assign s (second :: rest) inner <;> rfl
    cases standing : lookup name entries with
    | none =>
      rw [assign, standing]
      · exact composed []
      · exact List.cons_ne_nil _ _
    | some item =>
      rw [assign, standing]
      · cases item with
        | map inner => exact composed inner
        | _ => rfl
      · exact List.cons_ne_nil _ _

/-- Where the rest of the path ends alike in the entries below, so does what becomes of them. -/
theorem endAlike_placed (texts : s = t ∨ path = secret ∧ s ≠ "" ∧ t ≠ "") {item other : Value}
    (same : SameBut secret item other)
    (goesOn : ∀ inner innerOther, path ≠ [] → SameBut secret (.map inner) (.map innerOther) →
      EndAlike (fun entries others => SameBut secret (.map entries) (.map others)) (assign s path inner)
        (assign t path innerOther)) :
    EndAlike (SameBut secret) (placed s path item) (placed t path other) := by
  cases path with
  | nil =>
    refine .ok ?_
    rcases texts with rfl | ⟨rfl, some, someOther⟩
    · exact .refl _ _
    · exact .inr ⟨s, t, some, someOther, rfl, rfl⟩
  | cons name rest =>
    by_cases isMap : ∃ inner, item = .map inner
    · obtain ⟨inner, rfl⟩ := isMap
      obtain ⟨innerOther, rfl⟩ := same.exists_map
      rw [placed, placed]
      exact (goesOn inner innerOther (List.cons_ne_nil _ _) same).map fun _ _ alike => alike
    · have isBlocked (s : String) (item : Value) (notMap : ∀ inner, item ≠ .map inner) :
          placed s (name :: rest) item = .error (blocked (name :: rest)) := by
        cases item with
        | map inner => exact absurd rfl (notMap inner)
        | _ => rfl
      rw [isBlocked s item fun inner found => isMap ⟨inner, found⟩,
        isBlocked t other fun inner found => isMap (found ▸ same).exists_map_left]
      exact .error _

/-- Giving texts to a path ends alike in layers that are the same but for a text, also if the texts differ and
are given to that place. -/
theorem endAlike_assign (texts : s = t ∨ path = secret ∧ s ≠ "" ∧ t ≠ "") (notEmpty : path ≠ [])
    (same : SameBut secret (.map entries) (.map others)) :
    EndAlike (fun entries others => SameBut secret (.map entries) (.map others)) (assign s path entries)
      (assign t path others) := by
  induction path generalizing secret entries others with
  | nil => exact absurd rfl notEmpty
  | cons name rest ih =>
    cases secret with
    | nil =>
      obtain rfl : s = t := texts.resolve_right fun given => List.cons_ne_nil _ _ given.1
      obtain rfl := sameBut_nil_map_iff.mp same
      exact .refl (fun _ => .refl _ _) _
    | cons secretName below =>
      have sameEntries := sameBut_cons_map_iff.mp same
      rw [assign_cons, assign_cons]
      by_cases here : name = secretName
      · subst here
        have textsBelow : s = t ∨ rest = below ∧ s ≠ "" ∧ t ≠ "" :=
          texts.imp_right fun given => ⟨(List.cons.inj given.1).2, given.2⟩
        have alike := endAlike_placed textsBelow (sameEntries.getD_lookup (.map [])) fun _ _ => ih textsBelow
        exact alike.map fun _ _ items => sameBut_cons_map_iff.mpr (sameEntries.putEntry_self items)
      · -- The path leads elsewhere, so the texts are the same, and so is what stands there.
        obtain rfl : s = t := texts.resolve_right fun given => here (List.cons.inj given.1).1
        have unnamed : ¬(Value.text name).isText secretName = true := by simpa [isText] using here
        rw [sameEntries.lookup_eq here]
        exact (EndAlike.refl (fun _ => rfl) _).map fun item _ (equal : item = _) =>
          sameBut_cons_map_iff.mpr (equal ▸ sameEntries.putEntry_of_ne unnamed item)

/-- The environment ends alike with other passwords in it. -/
theorem endAlike_ofEnvironment {named namedOther : List (String × String)}
    (alike : List.Forall₂ GivenAlike named namedOther) :
    EndAlike SameButPassword (ofEnvironment opening separator named)
      (ofEnvironment opening separator namedOther) := by
  refine EndAlike.foldlM (fun entries others given other same alike => ?_) alike (.refl [])
  obtain ⟨name, s⟩ := given
  obtain ⟨_, t⟩ := other
  obtain ⟨rfl, texts⟩ := alike
  dsimp only at texts ⊢
  cases counts : path? opening separator name with
  | none => exact .ok same
  | some path =>
    have single : separator.isEmpty = false := by decide
    rw [counts, Option.some.injEq] at texts
    simp only [single, Bool.false_eq_true, if_false]
    exact endAlike_assign texts (path_ne_nil counts) same

theorem sameBut_section (same : SameButPassword entries others) :
    SameBut ["password"] (section? entries) (section? others) :=
  (sameBut_cons_map_iff.mp same).getD_lookup (.map [])

theorem sameButPassword_ofOverrides (same : SameBut ["password"] (.map entries) (.map others)) :
    SameButPassword (ofOverrides entries) (ofOverrides others) := by
  have empty : entries = [] ↔ others = [] := (sameBut_cons_map_iff.mp same).eq_nil_iff
  rw [ofOverrides, ofOverrides]
  simp only [List.isEmpty_iff, empty]
  split
  · exact .refl _
  · refine sameBut_cons_map_iff.mpr ⟨?_, ?_⟩
    · rw [without_cons, without_cons, if_pos (isText_self _), if_pos (isText_self _)]
    · rw [itemsOf_cons, itemsOf_cons, if_pos (isText_self _), if_pos (isText_self _)]
      exact .cons same .nil

/-- Layers that are laid over each other keep it that they differ in the password alone. -/
theorem sameButPassword_combine {file fileOther environment environmentOther overrides overridesOther :
    List (Value × Value)} (sameFile : SameButPassword file fileOther)
    (sameEnvironment : SameButPassword environment environmentOther)
    (sameOverrides : SameBut ["password"] (.map overrides) (.map overridesOther)) :
    SameButPassword (combine file environment overrides) (combine fileOther environmentOther overridesOther) := by
  have base := SameBut.overlay (.some sameFile) sameEnvironment
  have whole := SameBut.overlay (.some base) (sameButPassword_ofOverrides sameOverrides)
  rwa [← map_combine, ← map_combine] at whole

/-- Settings that are read with another password are the same but for it, and if one reading is refused, so is
the other one, with the same fault. A fault of the settings shows what was given without the password. -/
theorem alikeButPassword_load :
    (∀ entries others, SameBut ["password"] (.map entries) (.map others) →
      EndAlike Settings.SameButPassword (Settings.ofValue (.map entries)) (Settings.ofValue (.map others)) ∧
        ∀ fault, Settings.ofValue (.map entries) = .error fault → ∃ issues, fault =
          .validation s!"Invalid Neo4j configuration: {issues.length} error(s)" (some (.invalid "Neo4jConfig" issues))
            (.text "Neo4jConfig") (.map (entries.filter fun entry => !entry.1.isText "password"))) ∧
    ∀ file fileOther named namedOther overrides overridesOther,
      EndAlike SameButPassword file fileOther → List.Forall₂ GivenAlike named namedOther →
        SameBut ["password"] (.map overrides) (.map overridesOther) →
          EndAlike Settings.SameButPassword (load file named overrides)
            (load fileOther namedOther overridesOther) := by
  refine ⟨fun entries others same => ⟨Settings.endAlike_ofValue same, fun fault refused => ?_⟩, ?_⟩
  · rw [Settings.ofValue] at refused
    cases checked : Settings.check entries with
    | ok settings => rw [checked] at refused; cases refused
    | error issues => rw [checked] at refused; cases refused; exact ⟨issues, rfl⟩
  · intro file fileOther named namedOther overrides overridesOther sameFile alike sameOverrides
    rw [load, load]
    refine sameFile.bind fun base baseOther sameBase => ?_
    refine (endAlike_ofEnvironment alike).bind fun environment environmentOther sameEnvironment => ?_
    exact Settings.endAlike_ofValue (sameBut_section (sameButPassword_combine sameBase sameEnvironment sameOverrides))

end Passwords

/-- Variables that name the same user with another password. -/
def readerWithOther : List (String × String) :=
  [("CYPHERGRAPH_NEO4J__USER", "reader"), ("HOME", "/home/reader"), ("CYPHERGRAPH_NEO4J__PASSWORD", "other")]

def writerFile : Except Fault (List (Value × Value)) :=
  .ok [(.text "neo4j", .map writerSection)]

/-- Fields without a user, with a password behind the others. -/
def unnamed : Value :=
  .map (textEntries [("url", "http://localhost"), ("password", "secret")])

/-- The same fields with another password, which stands in front of them. -/
def unnamedWithOther : Value :=
  .map (textEntries [("password", "other"), ("url", "http://localhost")])

/-- A user with another password has the same settings but for it, and settings without a user are refused with
the same fault whatever the password is and wherever it stands. -/
theorem alikeButPassword_load_reader :
    (∃ settings, load writerFile reader (textEntries [("database", "graph")]) = .ok readerSettings ∧
      load writerFile readerWithOther (textEntries [("database", "graph")]) = .ok settings ∧
        Settings.SameButPassword readerSettings settings ∧ settings.password = "other") ∧
    ∃ fault, Settings.ofValue unnamed = .error fault ∧ Settings.ofValue unnamedWithOther = .error fault := by
  have onPath : path? opening separator "CYPHERGRAPH_NEO4J__PASSWORD" = some passwordPath := by decide +kernel
  have alike : List.Forall₂ GivenAlike reader readerWithOther :=
    .cons ⟨rfl, .inl rfl⟩ (.cons ⟨rfl, .inl rfl⟩ (.cons ⟨rfl, .inr ⟨onPath, by decide, by decide⟩⟩ .nil))
  have same : SameBut ["password"] unnamed unnamedWithOther :=
    sameBut_cons_map_iff.mpr ⟨rfl, .cons (.inr ⟨"secret", "other", by decide, by decide, rfl, rfl⟩) .nil⟩
  constructor
  · have ended := alikeButPassword_load.2 writerFile _ reader readerWithOther
      (textEntries [("database", "graph")]) _ (.refl SameButPassword.refl _) alike (.refl _ _)
    have first : (load writerFile reader (textEntries [("database", "graph")])).toOption = some readerSettings := by
      decide +kernel
    have password : (load writerFile readerWithOther (textEntries [("database", "graph")])).toOption.map
        Settings.password = some "other" := by decide +kernel
    generalize load _ reader _ = read at ended first ⊢
    generalize load _ readerWithOther _ = readOther at ended password ⊢
    cases ended with
    | ok settings =>
      cases first
      exact ⟨_, rfl, rfl, settings, Option.some.inj password⟩
    | error fault => cases first
  · have ended := (alikeButPassword_load.1 _ _ same).1
    have refused : (Settings.ofValue unnamed).toOption = none := by decide +kernel
    change EndAlike _ (Settings.ofValue unnamed) (Settings.ofValue unnamedWithOther) at ended
    generalize Settings.ofValue unnamed = read at ended refused ⊢
    generalize Settings.ofValue unnamedWithOther = readOther at ended ⊢
    cases ended with
    | ok settings => cases refused
    | error fault => exact ⟨fault, rfl, rfl⟩

end Layers

end GraphQuery
