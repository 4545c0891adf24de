import GraphQuery.Proofs.Value.Overlay

/-! # Values that differ in one text

`Value.SameBut` relates values that are the same but for a text at the end of a path of keys, which is
empty on neither side. Values that are laid over each other keep the relation (`Value.SameBut.overlay`),
since what is laid over what depends on which values are maps and never on a text.
-/

namespace GraphQuery.Value

def itemsOf (name : String) (entries : List (Value × Value)) : List Value :=
  (entries.filter fun entry => entry.1.isText name).map Prod.snd

/-- Whether entries are the same in the same order but for those under a text, which are related. -/
structure EntriesSameBut (related : Value → Value → Prop) (name : String)
    (entries others : List (Value × Value)) : Prop where
  without_eq : without name entries = without name others
  items : List.Forall₂ related (itemsOf name entries) (itemsOf name others)

/-- Whether values are the same but for the text at the end of a path, which is empty on neither side. -/
def SameBut : (path : List String) → Value → Value → Prop
  | [], v, w => v = w ∨ ∃ s t, s ≠ "" ∧ t ≠ "" ∧ v = .text s ∧ w = .text t
  | name :: rest, v, w => v = w ∨ ∃ entries others, v = .map entries ∧ w = .map others ∧
      EntriesSameBut (SameBut rest) name entries others

/-! ## The items under a text -/

section Items

variable {name : String} {key : Value} {entries : List (Value × Value)}

theorem isText_self (name : String) : (text name).isText name = true := by
  simp [isText]

theorem eq_text_of_isText (named : key.isText name = true) : key = .text name := by
  cases key <;> simp_all [isText]

theorem itemsOf_cons (name : String) (entry : Value × Value) (rest : List (Value × Value)) :
    itemsOf name (entry :: rest) =
      if entry.1.isText name then entry.2 :: itemsOf name rest else itemsOf name rest := by
  by_cases named : entry.1.isText name = true <;> simp [itemsOf, named]

theorem without_cons (name : String) (entry : Value × Value) (rest : List (Value × Value)) :
    without name (entry :: rest) =
      if entry.1.isText name then without name rest else entry :: without name rest := by
  by_cases named : entry.1.isText name = true <;> simp [without, named]

theorem eq_nil_iff_itemsOf (name : String) (entries : List (Value × Value)) :
    entries = [] ↔ without name entries = [] ∧ itemsOf name entries = [] := by
  cases entries with
  | nil => simp [without, itemsOf]
  | cons entry rest =>
    rw [without_cons, itemsOf_cons]
    split <;> simp

theorem lookup_eq_head? (name : String) (entries : List (Value × Value)) :
    lookup name entries = (itemsOf name entries).head? := by
  induction entries with
  | nil => rfl
  | cons entry rest ih =>
    rw [itemsOf_cons, lookup, ih]
    split <;> rfl

theorem lookup_without {s : String} (different : s ≠ name) (entries : List (Value × Value)) :
    lookup s (without name entries) = lookup s entries := by
  rw [lookup_eq, binding?_without, if_neg (by simpa using different), ← lookup_eq]

theorem item?_without (unnamed : ¬key.isText name = true) (entries : List (Value × Value)) :
    item? key (without name entries) = item? key entries := by
  rw [item?_eq, binding?_without, if_neg (mt isText_iff.mpr unnamed), ← item?_eq]

theorem isText_eq_of_sameKey {k : Value} (same : sameKey k key = true) : k.isText name = key.isText name := by
  rw [Bool.eq_iff_iff, isText_iff, isText_iff, sameKey_iff.mp same]

/-- Entries are chosen by their keys before or after an item is written. -/
theorem filter_putEntry (keep : Value → Bool) (key item : Value)
    (respects : ∀ k, sameKey k key = true → keep k = keep key) (entries : List (Value × Value)) :
    (putEntry key item entries).filter (fun entry => keep entry.1) =
      if keep key then putEntry key item (entries.filter fun entry => keep entry.1)
      else entries.filter fun entry => keep entry.1 := by
  induction entries with
  | nil => cases kept : keep key <;> simp [putEntry, kept]
  | cons entry rest ih =>
    obtain ⟨k, old⟩ := entry
    rw [putEntry]
    by_cases here : sameKey k key = true
    · cases kept : keep key <;> simp [here, respects k here, kept, putEntry]
    · rw [if_neg here, List.filter_cons, List.filter_cons, ih]
      cases kept : keep key <;> cases keptFirst : keep k <;> simp [putEntry, here]

theorem without_putEntry_self (name : String) (item : Value) (entries : List (Value × Value)) :
    without name (putEntry (.text name) item entries) = without name entries := by
  have dropped := filter_putEntry (fun k => !k.isText name) (.text name) item
    (fun k same => by rw [isText_eq_of_sameKey same]) entries
  rwa [isText_self] at dropped

theorem without_putEntry_of_ne (unnamed : ¬key.isText name = true) (item : Value) (entries : List (Value × Value)) :
    without name (putEntry key item entries) = putEntry key item (without name entries) := by
  have kept := filter_putEntry (fun k => !k.isText name) key item
    (fun k same => by rw [isText_eq_of_sameKey same]) entries
  rwa [if_pos (by simpa using unnamed)] at kept

/-- Writing under the text replaces its first item. -/
theorem itemsOf_putEntry_self (name : String) (item : Value) (entries : List (Value × Value)) :
    itemsOf name (putEntry (.text name) item entries) = item :: (itemsOf name entries).tail := by
  rw [itemsOf, filter_putEntry _ _ _ (fun _ => isText_eq_of_sameKey), if_pos (isText_self name), itemsOf]
  cases named : entries.filter fun entry => entry.1.isText name with
  | nil => rfl
  | cons entry rest =>
    have among : entry ∈ entries.filter fun entry => entry.1.isText name := named ▸ List.mem_cons_self
    have first : entry.1.isText name = true := (List.mem_filter.mp among).2
    have here : sameKey entry.1 (.text name) = true := by simp [eq_text_of_isText first, sameKey]
    rw [putEntry, if_pos here]
    rfl

/-- Writing under another key leaves the items as they are. -/
theorem itemsOf_putEntry_of_ne (unnamed : ¬key.isText name = true) (item : Value) (entries : List (Value × Value)) :
    itemsOf name (putEntry key item entries) = itemsOf name entries := by
  rw [itemsOf, filter_putEntry _ _ _ (fun _ => isText_eq_of_sameKey), if_neg unnamed, itemsOf]

/-- What is laid over entries apart from a text does not depend on the entries under it. -/
theorem without_overlayEntries (name : String) (entries updates : List (Value × Value)) :
    without name (overlayEntries entries updates) =
      overlayEntries (without name entries) (without name updates) := by
  induction updates generalizing entries with
  | nil => rfl
  | cons update rest ih =>
    obtain ⟨key, new⟩ := update
    rw [overlayEntries, ih, without_cons]
    by_cases named : key.isText name = true
    · obtain rfl := eq_text_of_isText named
      rw [if_pos named, without_putEntry_self]
    · rw [if_neg named, without_putEntry_of_ne named, overlayEntries, item?_without named]

/-- The items under a text are laid over each other one after another. -/
theorem itemsOf_overlayEntries (name : String) (entries updates : List (Value × Value)) :
    itemsOf name (overlayEntries entries updates) =
      (itemsOf name updates).foldl (fun items new => overlay items.head? new :: items.tail)
        (itemsOf name entries) := by
  induction updates generalizing entries with
  | nil => rfl
  | cons update rest ih =>
    obtain ⟨key, new⟩ := update
    rw [overlayEntries, ih, itemsOf_cons]
    by_cases named : key.isText name = true
    · obtain rfl := eq_text_of_isText named
      rw [if_pos named, itemsOf_putEntry_self, List.foldl_cons, ← lookup_eq_head?, item?_eq, keyName, ← lookup_eq]
    · rw [if_neg named, itemsOf_putEntry_of_ne named]

end Items

section SameBut

variable {related : Value → Value → Prop} {name : String} {path : List String} {v w key item other : Value}
  {entries others updates newest : List (Value × Value)}

@[refl] theorem SameBut.refl (path : List String) (v : Value) : SameBut path v v := by
  cases path <;> exact .inl rfl

theorem forall₂_tail {items others : List Value} (all : List.Forall₂ related items others) :
    List.Forall₂ related items.tail others.tail := by
  cases all with
  | nil => exact .nil
  | cons _ rest => exact rest

theorem EntriesSameBut.refl (reflexive : ∀ v, related v v) (name : String) (entries : List (Value × Value)) :
    EntriesSameBut related name entries entries :=
  ⟨rfl, List.forall₂_same.mpr fun v _ => reflexive v⟩

theorem sameBut_nil_map_iff : SameBut [] (.map entries) (.map others) ↔ entries = others := by
  simp [SameBut]

theorem sameBut_cons_map_iff : SameBut (name :: path) (.map entries) (.map others) ↔
    EntriesSameBut (SameBut path) name entries others := by
  constructor
  · rintro (same | ⟨_, _, ⟨⟩, ⟨⟩, same⟩)
    · exact map.inj same ▸ EntriesSameBut.refl (SameBut.refl path) _ _
    · exact same
  · exact fun same => .inr ⟨entries, others, rfl, rfl, same⟩

/-- What is the same as a map is a map. -/
theorem SameBut.exists_map (same : SameBut path (.map entries) w) : ∃ others, w = .map others := by
  cases path with
  | nil =>
    rcases same with rfl | ⟨_, _, -, -, ⟨⟩, -⟩
    exact ⟨entries, rfl⟩
  | cons name rest =>
    rcases same with rfl | ⟨_, others, -, rfl, -⟩
    · exact ⟨entries, rfl⟩
    · exact ⟨others, rfl⟩

theorem SameBut.exists_map_left (same : SameBut path v (.map others)) : ∃ entries, v = .map entries := by
  cases path with
  | nil =>
    rcases same with rfl | ⟨_, _, -, -, -, ⟨⟩⟩
    exact ⟨others, rfl⟩
  | cons name rest =>
    rcases same with rfl | ⟨entries, _, rfl, -, -⟩
    · exact ⟨others, rfl⟩
    · exact ⟨entries, rfl⟩

/-! ## Looking up and writing -/

theorem EntriesSameBut.lookup_eq (same : EntriesSameBut related name entries others) {s : String}
    (different : s ≠ name) : lookup s entries = lookup s others := by
  rw [← lookup_without different entries, same.without_eq, lookup_without different]

theorem EntriesSameBut.eq_nil_iff (same : EntriesSameBut related name entries others) :
    entries = [] ↔ others = [] := by
  rw [eq_nil_iff_itemsOf name entries, eq_nil_iff_itemsOf name others, same.without_eq]
  refine and_congr_right fun _ => ?_
  rw [← List.length_eq_zero_iff, same.items.length_eq, List.length_eq_zero_iff]

theorem EntriesSameBut.rel_lookup (same : EntriesSameBut related name entries others) :
    Option.Rel related (lookup name entries) (lookup name others) := by
  have items := same.items
  rw [lookup_eq_head?, lookup_eq_head?]
  generalize itemsOf name entries = left at items ⊢
  generalize itemsOf name others = right at items ⊢
  cases items with
  | nil => exact .none
  | cons first _ => exact .some first

/-- What stands under the name is the same but for what is related there. -/
theorem EntriesSameBut.getD_lookup (same : EntriesSameBut (SameBut path) name entries others) (absent : Value) :
    SameBut path ((lookup name entries).getD absent) ((lookup name others).getD absent) := by
  have found := same.rel_lookup
  generalize lookup name entries = left at found ⊢
  generalize lookup name others = right at found ⊢
  cases found with
  | none => exact .refl _ _
  | some items => exact items

theorem EntriesSameBut.putEntry_self (same : EntriesSameBut related name entries others)
    (items : related item other) :
    EntriesSameBut related name (putEntry (.text name) item entries) (putEntry (.text name) other others) := by
  constructor
  · rw [without_putEntry_self, without_putEntry_self, same.without_eq]
  · rw [itemsOf_putEntry_self, itemsOf_putEntry_self]
    exact .cons items (forall₂_tail same.items)

theorem EntriesSameBut.putEntry_of_ne (same : EntriesSameBut related name entries others)
    (unnamed : ¬key.isText name = true) (item : Value) :
    EntriesSameBut related name (putEntry key item entries) (putEntry key item others) := by
  constructor
  · rw [without_putEntry_of_ne unnamed, without_putEntry_of_ne unnamed, same.without_eq]
  · rw [itemsOf_putEntry_of_ne unnamed, itemsOf_putEntry_of_ne unnamed]
    exact same.items

/-! ## Laying values over values -/

private theorem entriesSameBut_overlayEntries
    (keeps : ∀ old older new newer, Option.Rel related old older → related new newer →
      related (overlay old new) (overlay older newer))
    (same : EntriesSameBut related name entries others) (sameUpdates : EntriesSameBut related name updates newest) :
    EntriesSameBut related name (overlayEntries entries updates) (overlayEntries others newest) := by
  constructor
  · rw [without_overlayEntries, without_overlayEntries, same.without_eq, sameUpdates.without_eq]
  · rw [itemsOf_overlayEntries, itemsOf_overlayEntries]
    have start := same.items
    have laid := sameUpdates.items
    generalize itemsOf name entries = items at start ⊢
    generalize itemsOf name others = itemsOther at start ⊢
    generalize itemsOf name updates = news at laid ⊢
    generalize itemsOf name newest = newers at laid ⊢
    -- The items that stand there so far are arbitrary in the induction on those that are laid over them.
    induction laid generalizing items itemsOther with
    | nil => exact start
    | cons first _ ih =>
      refine ih _ _ (.cons (keeps _ _ _ _ ?_ first) (forall₂_tail start))
      cases start with
      | nil => exact .none
      | cons standing _ => exact .some standing

/-- Values that are the same but for a text stay so when they are laid over each other. -/
theorem SameBut.overlay {old older : Option Value} {new newer : Value}
    (sameOld : Option.Rel (SameBut path) old older) (sameNew : SameBut path new newer) :
    SameBut path (overlay old new) (overlay older newer) := by
  induction path generalizing old older new newer with
  | nil | cons name rest ih =>
    by_cases maps : ∃ entries updates, old = some (.map entries) ∧ new = .map updates
    · obtain ⟨entries, updates, rfl, rfl⟩ := maps
      cases sameOld with
      | some sameEntries =>
        obtain ⟨others, rfl⟩ := sameEntries.exists_map
        obtain ⟨newest, rfl⟩ := sameNew.exists_map
        rw [overlay_map, overlay_map]
        first
        | rw [sameBut_nil_map_iff] at sameEntries sameNew ⊢
          rw [sameEntries, sameNew]
        | rw [sameBut_cons_map_iff] at sameEntries sameNew ⊢
          exact entriesSameBut_overlayEntries (fun _ _ _ _ => ih) sameEntries sameNew
    · have replaced : Value.overlay old new = new :=
        overlay_of_notMap fun entries updates isMap isNew => maps ⟨entries, updates, isMap, isNew⟩
      have replacedOther : Value.overlay older newer = newer := by
        refine overlay_of_notMap fun others newest isMap isNew => ?_
        subst isMap isNew
        cases sameOld with
        | some sameEntries =>
          obtain ⟨entries, rfl⟩ := sameEntries.exists_map_left
          obtain ⟨updates, rfl⟩ := sameNew.exists_map_left
          exact maps ⟨entries, updates, rfl, rfl⟩
      rwa [replaced, replacedOther]

end SameBut

end GraphQuery.Value
