import GraphQuery.Config.Layers
import GraphQuery.Proofs.Text.Split
import GraphQuery.Proofs.Value.Overlay

/-! # The layer of the environment

Every variable that counts gives a text to a path. `Layers.Holds` says what stands at a place after
texts were given to paths below it, whatever their order was. It is kept as long as no path leads
through another one, and fixes what stands there up to the order of entries.
-/

namespace GraphQuery.Layers

open Value

/-- The texts that variables give to paths. -/
def writes (named : List (String × String)) : List (List String × String) :=
  named.filterMap fun (name, s) => (path? opening separator name).map fun path => (path, s)

/-- What is given to paths that go on from a name. -/
def below (name : String) (given : List (List String × String)) : List (List String × String) :=
  given.filterMap fun write =>
    match write.1 with
    | first :: rest => if first = name then some (rest, write.2) else none
    | [] => none

/-- Whether neither of two paths leads through the other one. -/
def Apart (path other : List String) : Prop :=
  ¬path <+: other ∧ ¬other <+: path

/-- What stands at a place after texts were given to paths that go on from there. -/
inductive Holds : List (List String × String) → Option Value → Prop where
  | nothing : Holds [] none
  | text (s : String) : Holds [([], s)] (some (.text s))
  | entries {given : List (List String × String)} {entries : List (Value × Value)} :
    given ≠ [] → (∀ write ∈ given, write.1 ≠ []) → IsTable entries →
      (∀ name, Holds (below name given) (lookup name entries)) → Holds given (some (.map entries))

/-- The entries after texts were given to paths. -/
structure Shows (given : List (List String × String)) (entries : List (Value × Value)) : Prop where
  table : IsTable entries
  items : ∀ name, Holds (below name given) (lookup name entries)

section Paths

variable {given others : List (List String × String)} {entries : List (Value × Value)}
  {path : List String} {name s : String}

theorem mem_below {write : List String × String} :
    write ∈ below name given ↔ (name :: write.1, write.2) ∈ given := by
  rw [below, List.mem_filterMap]
  constructor
  · rintro ⟨⟨path, s⟩, member, found⟩
    cases path with
    | nil => cases found
    | cons first rest =>
      dsimp only at found
      split at found
      · rename_i same
        cases found
        exact same ▸ member
      · cases found
  · intro member
    exact ⟨_, member, by simp⟩

theorem below_append (name : String) (given others : List (List String × String)) :
    below name (given ++ others) = below name given ++ below name others :=
  List.filterMap_append

theorem below_singleton_self (name s : String) (path : List String) :
    below name [(name :: path, s)] = [(path, s)] := by
  simp [below]

theorem below_singleton_of_ne {other : String} (different : other ≠ name) (s : String) (path : List String) :
    below other [(name :: path, s)] = [] := by
  simp [below, different.symm]

theorem below_perm (perm : given.Perm others) (name : String) : (below name given).Perm (below name others) :=
  perm.filterMap _

theorem Apart.cons_iff {other : List String} : Apart (name :: path) (name :: other) ↔ Apart path other := by
  simp [Apart]

/-! ## One text more -/

theorem Shows.nil : Shows [] [] :=
  ⟨.nil, fun _ => .nothing⟩

theorem assign_cons_cons (s name second : String) (rest : List String) {inner : List (Value × Value)}
    (found : (lookup name entries).getD (.map []) = .map inner) :
    assign s (name :: second :: rest) entries =
      (assign s (second :: rest) inner).map fun changed => putEntry (.text name) (.map changed) entries := by
  cases here : lookup name entries with
  | none =>
    rw [here] at found
    cases found
    rw [assign, here]
    exact List.cons_ne_nil _ _
  | some item =>
    rw [here] at found
    cases found
    rw [assign, here]
    exact List.cons_ne_nil _ _

/-- What stands under a name through which a new path leads are entries. -/
theorem Shows.exists_inner (shows : Shows given entries) (longer : ∀ write ∈ below name given, write.1 ≠ []) :
    ∃ inner, (lookup name entries).getD (.map []) = .map inner ∧ Shows (below name given) inner := by
  have item := shows.items name
  generalize lookup name entries = found at item ⊢
  generalize below name given = inside at item longer ⊢
  cases item with
  | nothing => exact ⟨[], rfl, .nil⟩
  | text s => exact absurd rfl (longer _ (List.mem_singleton.mpr rfl))
  | entries _ _ table items => exact ⟨_, rfl, table, items⟩

/-- Only what stands under the first name of a path changes. -/
theorem Shows.putEntry (shows : Shows given entries) {item : Value}
    (holds : Holds (below name given ++ [(path, s)]) (some item)) :
    Shows (given ++ [(name :: path, s)]) (putEntry (.text name) item entries) := by
  refine ⟨shows.table.putEntry name item, fun other => ?_⟩
  rw [below_append]
  by_cases same : other = name
  · subst same
    rwa [below_singleton_self, lookup_putEntry_self]
  · rw [below_singleton_of_ne same, List.append_nil, lookup_putEntry_of_ne same]
    exact shows.items other

/-- Giving a text to a path that is apart from the paths before it. -/
theorem Shows.assign (shows : Shows given entries) (notEmpty : path ≠ [])
    (apart : ∀ write ∈ given, Apart write.1 path) (s : String) :
    ∃ changed, assign s path entries = .ok changed ∧ Shows (given ++ [(path, s)]) changed := by
  induction path generalizing given entries with
  | nil => exact absurd rfl notEmpty
  | cons name rest ih =>
    have apartBelow : ∀ write ∈ below name given, Apart write.1 rest := fun write member =>
      Apart.cons_iff.mp (apart _ (mem_below.mp member))
    cases rest with
    | nil =>
      -- Whatever was given below the name would lead through the new text.
      have empty : below name given = [] := List.eq_nil_iff_forall_not_mem.mpr fun write member =>
        (apartBelow write member).2 List.nil_prefix
      refine ⟨_, rfl, shows.putEntry ?_⟩
      rw [empty]
      exact .text s
    | cons second rest =>
      have longer : ∀ write ∈ below name given, write.1 ≠ [] := fun write member empty =>
        (apartBelow write member).1 (empty ▸ List.nil_prefix)
      obtain ⟨inner, found, showsInner⟩ := shows.exists_inner longer
      obtain ⟨changed, assigned, showsChanged⟩ := ih showsInner (List.cons_ne_nil _ _) apartBelow
      refine ⟨_, ?_, shows.putEntry (.entries ?_ ?_ showsChanged.table showsChanged.items)⟩
      · rw [assign_cons_cons s name second rest found, assigned]
        rfl
      · exact List.append_ne_nil_of_right_ne_nil _ (List.cons_ne_nil _ _)
      · exact List.forall_mem_append.mpr ⟨longer, List.forall_mem_singleton.mpr (List.cons_ne_nil _ _)⟩

/-! ## All texts -/

/-- Texts are given to paths that are apart, one after another. -/
theorem Shows.assignAll (shows : Shows given entries) (notEmpty : ∀ write ∈ others, write.1 ≠ [])
    (apart : (given ++ others).Pairwise fun write other => Apart write.1 other.1) :
    ∃ changed, others.foldlM (fun entries write => Layers.assign write.2 write.1 entries) entries = .ok changed ∧
      Shows (given ++ others) changed := by
  induction others generalizing given entries with
  | nil => exact ⟨entries, rfl, by rwa [List.append_nil]⟩
  | cons write rest ih =>
    rw [List.append_cons] at apart ⊢
    have before := (List.pairwise_append.mp apart).1
    have apartWrite : ∀ other ∈ given, Apart other.1 write.1 := fun other member =>
      (List.pairwise_append.mp before).2.2 other member write (List.mem_singleton.mpr rfl)
    obtain ⟨notEmptyWrite, notEmptyRest⟩ := List.forall_mem_cons.mp notEmpty
    obtain ⟨next, assigned, showsNext⟩ := shows.assign notEmptyWrite apartWrite write.2
    obtain ⟨changed, ran, showsAll⟩ := ih showsNext notEmptyRest apart
    refine ⟨changed, ?_, showsAll⟩
    rw [List.foldlM_cons, assigned]
    exact ran

/-- What stands at a place is known, up to the order of entries, from the texts that were given, in
whatever order they were. -/
theorem Holds.reordered {v w : Option Value} (holds : Holds given v) (holdsOthers : Holds others w)
    (perm : given.Perm others) : Option.Rel Reordered v w := by
  -- Each way to hold goes with its own kind of paths, so both values stand there in the same way.
  induction holds generalizing others w with
  | nothing =>
    cases holdsOthers with
    | nothing => exact .none
    | text s => cases perm.nil_eq
    | entries some => exact absurd perm.nil_eq.symm some
  | text s =>
    cases holdsOthers with
    | nothing => cases perm.eq_nil
    | text t =>
      cases List.singleton_perm_singleton.mp perm
      exact .some (.refl _)
    | entries _ longer => exact absurd rfl (longer _ (perm.subset (List.mem_singleton.mpr rfl)))
  | entries some longer table _ ih =>
    cases holdsOthers with
    | nothing => exact absurd perm.eq_nil some
    | text t => exact absurd rfl (longer _ (perm.symm.subset (List.mem_singleton.mpr rfl)))
    | entries _ _ tableOthers items =>
      exact .some (table.reordered tableOthers fun name => ih name (items name) (below_perm perm name))

theorem Shows.reordered {entriesOthers : List (Value × Value)} (shows : Shows given entries)
    (showsOthers : Shows others entriesOthers) (perm : given.Perm others) :
    Reordered (.map entries) (.map entriesOthers) :=
  shows.table.reordered showsOthers.table fun name =>
    (shows.items name).reordered (showsOthers.items name) (below_perm perm name)

theorem keysDiffer_of_table (table : IsTable entries)
    (items : ∀ name, ∀ v ∈ lookup name entries, v.KeysDiffer keyName) : (map entries).KeysDiffer keyName := by
  rw [Value.keysDiffer_iff]
  refine ⟨distinct_iff_nodup.mp table.distinct, List.forall_mem_map.mpr fun entry member => ?_⟩
  obtain ⟨s, -, found⟩ := table.exists_lookup member
  exact items s _ found

theorem Holds.keysDiffer {v : Option Value} (holds : Holds given v) : ∀ w ∈ v, w.KeysDiffer keyName := by
  induction holds with
  | nothing => exact fun _ none => nomatch none
  | text s =>
    rintro _ ⟨⟩
    simp [KeysDiffer]
  | entries _ _ table _ ih =>
    rintro _ ⟨⟩
    exact keysDiffer_of_table table ih

theorem Shows.keysDiffer (shows : Shows given entries) : (map entries).KeysDiffer keyName :=
  keysDiffer_of_table shows.table fun name => (shows.items name).keysDiffer

/-! ## Paths that lead through others -/

theorem exists_blocked (rest : List String) : ∃ cls message, blocked rest = .plain cls message := by
  unfold blocked
  split <;> exact ⟨_, _, rfl⟩

/-- A path that leads through the text of another one is refused. -/
theorem exists_assign_blocked (notEmpty : path ≠ []) {onward : List String} (onwards : onward ≠ []) (s t : String) :
    ∃ entries cls message, assign s path [] = .ok entries ∧
      assign t (path ++ onward) entries = .error (.plain cls message) := by
  induction path with
  | nil => exact absurd rfl notEmpty
  | cons name rest ih =>
    cases rest with
    | nil =>
      obtain ⟨second, beyond, rfl⟩ := List.exists_cons_of_ne_nil onwards
      have found : lookup name [(.text name, .text s)] = some (.text s) := lookup_putEntry_self name (.text s) []
      obtain ⟨cls, message, fault⟩ := exists_blocked (second :: beyond)
      refine ⟨[(.text name, .text s)], cls, message, rfl, ?_⟩
      rw [List.singleton_append, Layers.assign, found, fault]
      exact List.cons_ne_nil _ _
    | cons second rest =>
      obtain ⟨inner, cls, message, first, blocked⟩ := ih (List.cons_ne_nil _ _)
      have found := lookup_putEntry_self name (.map inner) []
      refine ⟨putEntry (.text name) (.map inner) [], cls, message, ?_, ?_⟩
      · rw [assign_cons_cons s name second rest rfl, first]
        rfl
      · rw [List.cons_append, List.cons_append,
          assign_cons_cons t name second (rest ++ onward) (by rw [found]; rfl), ← List.cons_append, blocked]
        rfl

end Paths

/-! ## Names -/

section Names

variable {named : List (String × String)}

/-- What counts of the environment are the texts that are given to paths. -/
theorem ofEnvironment_eq (named : List (String × String)) :
    ofEnvironment opening separator named =
      (writes named).foldlM (fun entries write => assign write.2 write.1 entries) [] := by
  rw [ofEnvironment]
  -- The entries so far are arbitrary in the induction on the variables.
  generalize ([] : List (Value × Value)) = entries
  induction named generalizing entries with
  | nil => rfl
  | cons first rest ih =>
    obtain ⟨name, s⟩ := first
    rw [List.foldlM_cons, writes]
    cases counts : path? opening separator name with
    | none =>
      rw [List.filterMap_cons_none (by simp only [counts, Option.map_none])]
      simp only [counts]
      exact ih entries
    | some path =>
      rw [List.filterMap_cons_some (by simp only [counts, Option.map_some]; rfl), List.foldlM_cons]
      have single : separator.isEmpty = false := by decide
      simp only [counts, single, Bool.false_eq_true, if_false]
      exact congrArg _ (funext ih)

theorem mem_writes {write : List String × String} :
    write ∈ writes named ↔ ∃ name, (name, write.2) ∈ named ∧ path? opening separator name = some write.1 := by
  simp only [writes, List.mem_filterMap, Option.map_eq_some_iff]
  constructor
  · rintro ⟨⟨name, s⟩, member, path, counts, rfl⟩
    exact ⟨name, member, counts⟩
  · rintro ⟨name, member, counts⟩
    exact ⟨_, member, _, counts, rfl⟩

theorem path_ne_nil {name : String} {path : List String} (counts : path? opening separator name = some path) :
    path ≠ [] := by
  obtain ⟨rest, -, rfl⟩ := Option.map_eq_some_iff.mp counts
  intro empty
  have parts := List.map_eq_nil_iff.mp (List.map_eq_nil_iff.mp empty)
  exact Text.partsOf_ne_nil _ _ _ parts

/-- The path of a variable is what its small name behind the opening splits into. -/
theorem path?_eq_some_iff {name : String} {path : List String} :
    path? opening separator name = some path ↔
      ∃ rest, name = opening ++ rest ∧ path = Text.splitBy separator (Text.lowercase rest) := by
  simp only [path?, Option.map_eq_some_iff, Text.after?_eq_some_iff, separator, Text.splitBy_lowercase,
    @eq_comm _ path]

/-- Variables with the same path have the same name, but for capitals. -/
theorem lowercase_eq_of_path? {name other : String} {path : List String}
    (counts : path? opening separator name = some path) (countsOther : path? opening separator other = some path) :
    Text.lowercase name = Text.lowercase other := by
  obtain ⟨rest, rfl, split⟩ := path?_eq_some_iff.mp counts
  obtain ⟨restOther, rfl, splitOther⟩ := path?_eq_some_iff.mp countsOther
  have same := Text.splitBy_injective (split.symm.trans splitOther)
  have word : opening = "CYPHERGRAPH" ++ "_" := by decide
  rw [word, Text.lowercase_append, Text.lowercase_append, same]

end Names

end GraphQuery.Layers
