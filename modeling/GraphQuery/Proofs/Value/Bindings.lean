import GraphQuery.Proofs.Value.Reordering
import GraphQuery.Value.Entries

/-! # Entries by their keys

Entries with distinct keys are known from what stands under each name, whatever their order is:
`Value.reordered_of_matches`. Tables are entries whose keys are distinct texts, so that looking up texts
says all of them.
-/

namespace GraphQuery.Value

def keyName : Value → Bool × String
  | .text s => (true, s)
  | key => (false, key.display)

theorem sameKey_iff {a b : Value} : sameKey a b = true ↔ a.keyName = b.keyName := by
  cases a <;> cases b <;> simp [sameKey, keyName]

theorem isText_iff {s : String} {key : Value} : key.isText s = true ↔ key.keyName = (true, s) := by
  cases key <;> simp [isText, keyName]

def binding? (name : Bool × String) (entries : List (Value × Value)) : Option (Value × Value) :=
  entries.find? fun entry => entry.1.keyName = name

/-- Whether no two entries have the same key. -/
def Distinct (entries : List (Value × Value)) : Prop :=
  entries.Pairwise fun a b => b.1.keyName ≠ a.1.keyName

section Entries

variable {name : Bool × String} {entries others : List (Value × Value)} {entry : Value × Value}

theorem binding?_cons (name : Bool × String) (entry : Value × Value) (rest : List (Value × Value)) :
    binding? name (entry :: rest) = if entry.1.keyName = name then some entry else binding? name rest := by
  by_cases same : entry.1.keyName = name <;> simp [binding?, same]

theorem item?_eq (key : Value) (entries : List (Value × Value)) :
    item? key entries = (binding? key.keyName entries).map Prod.snd := by
  induction entries with
  | nil => rfl
  | cons first rest ih =>
    rw [binding?_cons, item?, ih]
    by_cases same : first.1.keyName = key.keyName
    · rw [if_pos (sameKey_iff.mpr same), if_pos same]
      rfl
    · rw [if_neg (mt sameKey_iff.mp same), if_neg same]

theorem lookup_eq (s : String) (entries : List (Value × Value)) :
    lookup s entries = (binding? (true, s) entries).map Prod.snd := by
  induction entries with
  | nil => rfl
  | cons first rest ih =>
    rw [binding?_cons, lookup, ih]
    by_cases same : first.1.keyName = (true, s)
    · rw [if_pos (isText_iff.mpr same), if_pos same]
      rfl
    · rw [if_neg (mt isText_iff.mp same), if_neg same]

theorem keyName_of_binding? (found : binding? name entries = some entry) : entry.1.keyName = name := by
  simpa using List.find?_some found

theorem mem_of_binding? (found : binding? name entries = some entry) : entry ∈ entries :=
  List.mem_of_find?_eq_some found

theorem distinct_cons : Distinct (entry :: entries) ↔
    (∀ other ∈ entries, other.1.keyName ≠ entry.1.keyName) ∧ Distinct entries :=
  List.pairwise_cons

theorem distinct_of_perm (perm : entries.Perm others) (distinct : Distinct entries) : Distinct others :=
  perm.pairwise distinct fun differ => differ.symm

theorem distinct_iff_nodup : Distinct entries ↔ ((entries.map Prod.fst).map keyName).Nodup := by
  rw [Distinct, List.nodup_iff_pairwise_ne, List.pairwise_map, List.pairwise_map]
  simp only [ne_comm]

theorem binding?_of_mem (distinct : Distinct entries) (member : entry ∈ entries) :
    binding? entry.1.keyName entries = some entry := by
  induction entries with
  | nil => cases member
  | cons first rest ih =>
    obtain ⟨absent, distinctRest⟩ := distinct_cons.mp distinct
    rw [binding?_cons]
    rcases List.mem_cons.mp member with rfl | later
    · rw [if_pos rfl]
    · rw [if_neg (Ne.symm (absent entry later)), ih distinctRest later]

theorem binding?_eq_none_iff : binding? name entries = none ↔ ∀ entry ∈ entries, entry.1.keyName ≠ name := by
  simp [binding?]

theorem binding?_eq_of_perm (distinct : Distinct entries) (perm : entries.Perm others) :
    binding? name entries = binding? name others := by
  cases found : binding? name others with
  | none =>
    rw [binding?_eq_none_iff] at found ⊢
    exact fun entry member => found entry (perm.mem_iff.mp member)
  | some entry =>
    obtain rfl := keyName_of_binding? found
    exact binding?_of_mem distinct (perm.mem_iff.mpr (mem_of_binding? found))

/-! ## Writing entries -/

/-- A key that is present stays as it is when its item is replaced. -/
theorem binding?_putEntry (name : Bool × String) (key item : Value) (entries : List (Value × Value)) :
    binding? name (putEntry key item entries) =
      if key.keyName = name then some (((binding? name entries).map Prod.fst).getD key, item)
      else binding? name entries := by
  induction entries with
  | nil =>
    rw [putEntry, binding?_cons]
    rfl
  | cons first rest ih =>
    obtain ⟨k, old⟩ := first
    rw [putEntry]
    by_cases same : k.keyName = key.keyName
    · rw [if_pos (sameKey_iff.mpr same), binding?_cons, binding?_cons]
      dsimp only
      rw [same]
      split <;> rfl
    · rw [if_neg (mt sameKey_iff.mp same), binding?_cons, binding?_cons, ih]
      dsimp only
      by_cases here : k.keyName = name
      · have other : key.keyName ≠ name := fun there => same (here.trans there.symm)
        rw [if_pos here, if_pos here, if_neg other]
      · rw [if_neg here, if_neg here]

theorem distinct_putEntry (distinct : Distinct entries) (key item : Value) :
    Distinct (putEntry key item entries) := by
  induction entries with
  | nil => exact List.pairwise_singleton _ _
  | cons first rest ih =>
    obtain ⟨k, old⟩ := first
    obtain ⟨absent, distinctRest⟩ := distinct_cons.mp distinct
    rw [putEntry]
    by_cases same : k.keyName = key.keyName
    · rw [if_pos (sameKey_iff.mpr same)]
      exact distinct_cons.mpr ⟨absent, distinctRest⟩
    · rw [if_neg (mt sameKey_iff.mp same), distinct_cons]
      refine ⟨binding?_eq_none_iff.mp ?_, ih distinctRest⟩
      rw [binding?_putEntry, if_neg (Ne.symm same), binding?_eq_none_iff]
      exact absent

theorem binding?_without (key : String) (name : Bool × String) (entries : List (Value × Value)) :
    binding? name (without key entries) = if name = (true, key) then none else binding? name entries := by
  induction entries with
  | nil => simp [without, binding?]
  | cons entry rest ih =>
    rw [without] at ih ⊢
    by_cases left : entry.1.keyName = (true, key)
    · have out : entry.1.isText key = true := isText_iff.mpr left
      rw [List.filter_cons_of_neg (by simp [out]), ih, binding?_cons, left]
      by_cases same : name = (true, key)
      · rw [if_pos same, if_pos same]
      · rw [if_neg same, if_neg same, if_neg (Ne.symm same)]
    · have kept : entry.1.isText key ≠ true := mt isText_iff.mp left
      rw [List.filter_cons_of_pos (by simpa using kept), binding?_cons, binding?_cons, ih]
      by_cases here : entry.1.keyName = name
      · rw [if_pos here, if_pos here, if_neg (here ▸ left)]
      · rw [if_neg here, if_neg here]

theorem distinct_without (distinct : Distinct entries) (key : String) : Distinct (without key entries) :=
  List.Pairwise.filter _ distinct

/-! ## Entries up to their order -/

/-- Whether the same keys have items that are the same up to the order of entries. -/
def Matches (entries others : List (Value × Value)) : Prop :=
  ∀ name, Option.Rel (fun a b => a.1 = b.1 ∧ Reordered a.2 b.2) (binding? name entries) (binding? name others)

/-- What stands under a text. -/
theorem Matches.lookup (same : Matches entries others) (s : String) :
    Option.Rel Reordered (Value.lookup s entries) (Value.lookup s others) := by
  have found := same (true, s)
  rw [lookup_eq, lookup_eq]
  generalize binding? (true, s) entries = left at found ⊢
  generalize binding? (true, s) others = right at found ⊢
  cases found with
  | none => exact .none
  | some alike => exact .some alike.2

theorem Matches.without (same : Matches entries others) (key : String) :
    Matches (without key entries) (without key others) := by
  intro name
  rw [binding?_without, binding?_without]
  split
  · exact .none
  · exact same name

theorem binding?_append_cons (name : Bool × String) (before after : List (Value × Value)) (entry : Value × Value) :
    binding? name (before ++ entry :: after) = (binding? name before).or (binding? name (entry :: after)) := by
  rw [binding?, List.find?_append]
  rfl

/-- Entries that match are the same one by one once they are arranged alike. -/
theorem exists_forall₂_of_matches (distinct : Distinct entries) (distinctOthers : Distinct others)
    (same : Matches entries others) : ∃ arranged, others.Perm arranged ∧
      List.Forall₂ (fun a b => a.1 = b.1 ∧ Reordered a.2 b.2) entries arranged := by
  induction entries generalizing others with
  | nil =>
    cases others with
    | nil => exact ⟨[], .refl _, .nil⟩
    | cons other rest =>
      have absent := same other.1.keyName
      rw [binding?_cons, if_pos rfl] at absent
      cases absent
  | cons entry rest ih =>
    obtain ⟨absent, distinctRest⟩ := distinct_cons.mp distinct
    have here := same entry.1.keyName
    rw [binding?_cons, if_pos rfl] at here
    cases found : binding? entry.1.keyName others with
    | none =>
      rw [found] at here
      cases here
    | some other =>
      rw [found] at here
      obtain ⟨sameKey, sameItem⟩ := Option.rel_some_some.mp here
      obtain ⟨before, after, rfl⟩ := List.append_of_mem (mem_of_binding? found)
      have perm : (before ++ other :: after).Perm (other :: (before ++ after)) := List.perm_middle
      have distinctMiddle := distinct_of_perm perm distinctOthers
      obtain ⟨absentOthers, distinctBoth⟩ := distinct_cons.mp distinctMiddle
      have matchRest : Matches rest (before ++ after) := by
        intro name
        have whole := same name
        rw [binding?_eq_of_perm distinctOthers perm, binding?_cons, binding?_cons, ← sameKey] at whole
        by_cases atFirst : entry.1.keyName = name
        · subst atFirst
          rw [binding?_eq_none_iff.mpr absent, sameKey, binding?_eq_none_iff.mpr absentOthers]
          exact .none
        · rwa [if_neg atFirst, if_neg atFirst] at whole
      obtain ⟨arranged, permRest, all⟩ := ih distinctRest distinctBoth matchRest
      exact ⟨other :: arranged, perm.trans (permRest.cons other), .cons ⟨sameKey, sameItem⟩ all⟩

theorem reordered_of_matches (distinct : Distinct entries) (distinctOthers : Distinct others)
    (same : Matches entries others) : Reordered (.map entries) (.map others) := by
  obtain ⟨arranged, perm, all⟩ := exists_forall₂_of_matches distinct distinctOthers same
  have items := Reordered.map_of_forall₂ all
  exact items.trans (.entries perm.symm)

theorem rel_reordered_self (item : Option Value) : Option.Rel Reordered item item := by
  cases item with
  | none => exact .none
  | some v => exact .some (.refl v)

theorem Matches.refl (entries : List (Value × Value)) : Matches entries entries := by
  intro name
  cases binding? name entries with
  | none => exact .none
  | some entry => exact .some ⟨rfl, .refl _⟩

theorem Matches.symm (same : Matches entries others) : Matches others entries := by
  intro name
  have found := same name
  generalize binding? name entries = left at found ⊢
  generalize binding? name others = right at found ⊢
  cases found with
  | none => exact .none
  | some alike => exact .some ⟨alike.1.symm, alike.2.symm⟩

theorem Matches.trans {between : List (Value × Value)} (first : Matches entries between)
    (second : Matches between others) : Matches entries others := by
  intro name
  have toBetween := first name
  have toOthers := second name
  generalize binding? name entries = left at toBetween ⊢
  generalize binding? name between = middle at toBetween toOthers
  generalize binding? name others = right at toOthers ⊢
  cases toBetween with
  | none =>
    cases toOthers with
    | none => exact .none
  | some alike =>
    cases toOthers with
    | some next => exact .some ⟨alike.1.trans next.1, alike.2.trans next.2⟩

/-- The entries of a map; no other value has entries. -/
def bindings : Value → List (Value × Value)
  | .map entries => entries
  | _ => []

theorem distinct_bindings_iff {v : Value} : Distinct v.bindings ↔ (v.keys.map keyName).Nodup := by
  rw [distinct_iff_nodup]
  cases v <;> rfl

/-- Values that are the same up to the order of entries have the same keys. -/
theorem Reordered.keys_perm {v w : Value} (same : Reordered v w) : v.keys.Perm w.keys := by
  induction same with
  | refl v => rfl
  | symm _ ih => exact ih.symm
  | trans _ _ first second => exact first.trans second
  | entries perm => exact perm.map Prod.fst
  | entry before after key _ ih => simp [keys]
  | listItem before after _ ih | tupleItem before after _ ih => rfl

theorem Reordered.distinct_iff {v w : Value} (same : Reordered v w) :
    Distinct v.bindings ↔ Distinct w.bindings := by
  rw [distinct_bindings_iff, distinct_bindings_iff, (same.keys_perm.map keyName).nodup_iff]

/-- Values that are the same up to the order of entries have items that are. -/
theorem Reordered.matches {v w : Value} (same : Reordered v w) (distinct : Distinct v.bindings) :
    Matches v.bindings w.bindings := by
  induction same with
  | refl v => exact .refl _
  | symm previous ih => exact (ih (previous.distinct_iff.mpr distinct)).symm
  | trans first _ ihFirst ihSecond => exact (ihFirst distinct).trans (ihSecond (first.distinct_iff.mp distinct))
  | @entries entries others perm =>
    intro name
    have found : binding? name entries = binding? name others := binding?_eq_of_perm distinct perm
    simpa only [bindings, found] using Matches.refl others name
  | @entry before after key item other part _ =>
    intro name
    simp only [bindings, binding?_append_cons, binding?_cons]
    cases binding? name before with
    | some => exact .some ⟨rfl, .refl _⟩
    | none =>
      simp only [Option.none_or]
      split
      · exact .some ⟨rfl, part⟩
      · exact Matches.refl after name
  | listItem before after _ _ | tupleItem before after _ _ => exact .refl _

end Entries

def shape : Value → Value
  | .map _ => .map []
  | .list _ => .list []
  | .tuple _ => .tuple []
  | v => v

theorem Reordered.shape_eq {v w : Value} (same : Reordered v w) : v.shape = w.shape := by
  induction same with
  | refl v => rfl
  | symm _ ih => exact ih.symm
  | trans _ _ first second => exact first.trans second
  | entries perm => rfl
  | entry before after key _ ih => rfl
  | listItem before after _ ih | tupleItem before after _ ih => rfl

theorem Reordered.exists_map {entries : List (Value × Value)} {w : Value} (same : Reordered (.map entries) w) :
    ∃ others, w = .map others := by
  have shape := same.shape_eq
  cases w with
  | map others => exact ⟨others, rfl⟩
  | _ => cases shape

/-! ## Tables -/

/-- Whether entries are a table: the keys are distinct texts. -/
structure IsTable (entries : List (Value × Value)) : Prop where
  texts : ∀ entry ∈ entries, ∃ s, entry.1 = .text s
  distinct : Distinct entries

namespace IsTable

variable {entries others : List (Value × Value)}

theorem nil : IsTable [] :=
  ⟨List.forall_mem_nil _, List.Pairwise.nil⟩

theorem binding?_false (table : IsTable entries) (s : String) : binding? (false, s) entries = none := by
  rw [binding?_eq_none_iff]
  intro entry member noText
  obtain ⟨t, key⟩ := table.texts entry member
  rw [key] at noText
  cases noText

theorem key_eq (table : IsTable entries) {s : String} {entry : Value × Value}
    (found : binding? (true, s) entries = some entry) : entry.1 = .text s := by
  obtain ⟨t, key⟩ := table.texts entry (mem_of_binding? found)
  have here := keyName_of_binding? found
  rw [key] at here ⊢
  cases here
  rfl

/-- Tables are the same up to the order of entries if the same texts have items that are. -/
theorem reordered (table : IsTable entries) (tableOthers : IsTable others)
    (same : ∀ s, Option.Rel Reordered (lookup s entries) (lookup s others)) :
    Reordered (.map entries) (.map others) := by
  apply reordered_of_matches table.distinct tableOthers.distinct
  rintro ⟨isText, s⟩
  cases isText with
  | false =>
    rw [table.binding?_false, tableOthers.binding?_false]
    exact .none
  | true =>
    have alike := same s
    have key : ∀ entry ∈ binding? (true, s) entries, _ := fun _ => table.key_eq
    have keyOther : ∀ entry ∈ binding? (true, s) others, _ := fun _ => tableOthers.key_eq
    rw [lookup_eq, lookup_eq] at alike
    generalize binding? (true, s) entries = left at alike key ⊢
    generalize binding? (true, s) others = right at alike keyOther ⊢
    match left, right, alike with
    | none, none, _ => exact .none
    | some entry, some other, .some item => exact .some ⟨(key entry rfl).trans (keyOther other rfl).symm, item⟩

theorem of_binding? (distinct : Distinct entries) (none : ∀ s, binding? (false, s) entries = none) :
    IsTable entries := by
  refine ⟨fun entry member => ?_, distinct⟩
  have absent := fun s => binding?_eq_none_iff.mp (none s) entry member
  cases key : entry.1 with
  | text s => exact ⟨s, rfl⟩
  | _ =>
    rw [key] at absent
    exact absurd rfl (absent _)

theorem putEntry (table : IsTable entries) (s : String) (item : Value) :
    IsTable (Value.putEntry (.text s) item entries) := by
  apply of_binding? (distinct_putEntry table.distinct _ _)
  intro t
  rw [binding?_putEntry, if_neg (by simp [keyName]), table.binding?_false]

/-- What a table holds is found under its key. -/
theorem exists_lookup (table : IsTable entries) {entry : Value × Value} (member : entry ∈ entries) :
    ∃ s, entry.1 = .text s ∧ lookup s entries = some entry.2 := by
  obtain ⟨s, key⟩ := table.texts entry member
  have found := binding?_of_mem table.distinct member
  rw [key] at found
  exact ⟨s, key, by rw [lookup_eq]; exact congrArg _ found⟩

end IsTable

end GraphQuery.Value
