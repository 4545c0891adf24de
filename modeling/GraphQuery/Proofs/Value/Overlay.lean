import GraphQuery.Proofs.Value.Bindings

/-! # Laying entries over entries

What stands under a key after entries were laid over others depends only on what stood under it in
both: `Value.binding?_overlayEntries`. So the order of entries does not matter on either side, and the
result is the same up to the order of entries: `Value.Reordered.overlay`.
-/

namespace GraphQuery.Value

section Overlaying

variable {entries updates : List (Value × Value)}

/-- What is laid over something that is no map, or is no map itself, takes its place. -/
theorem overlay_of_notMap {old : Option Value} {new : Value}
    (notMaps : ∀ entries updates, old = some (.map entries) → new ≠ .map updates) : overlay old new = new := by
  cases new with
  | map updates =>
    rw [overlay]
    exact fun entries same => notMaps entries updates same rfl
  | _ => rfl

theorem overlay_map (entries updates : List (Value × Value)) :
    overlay (some (.map entries)) (.map updates) = .map (overlayEntries entries updates) := by
  rw [overlay]

theorem distinct_overlayEntries (distinct : Distinct entries) (updates : List (Value × Value)) :
    Distinct (overlayEntries entries updates) := by
  induction updates generalizing entries with
  | nil => exact distinct
  | cons update rest ih =>
    rw [overlayEntries]
    exact ih (distinct_putEntry distinct _ _)

/-- What stands under a name after entries were laid over others. -/
theorem binding?_overlayEntries (distinct : Distinct updates) (name : Bool × String)
    (entries : List (Value × Value)) :
    binding? name (overlayEntries entries updates) =
      match binding? name updates with
      | some (key, new) => some (((binding? name entries).map Prod.fst).getD key,
          overlay ((binding? name entries).map Prod.snd) new)
      | none => binding? name entries := by
  induction updates generalizing entries with
  | nil => rfl
  | cons update rest ih =>
    obtain ⟨key, new⟩ := update
    obtain ⟨absent, distinctRest⟩ := distinct_cons.mp distinct
    rw [overlayEntries, ih distinctRest, binding?_cons, binding?_putEntry, item?_eq]
    dsimp only
    by_cases here : key.keyName = name
    · subst here
      have later : binding? key.keyName rest = none := binding?_eq_none_iff.mpr absent
      rw [if_pos rfl, if_pos rfl, later]
    · rw [if_neg here, if_neg here]

/-- Overlaying by texts alone. -/
theorem lookup_overlayEntries (distinct : Distinct updates) (s : String) (entries : List (Value × Value)) :
    lookup s (overlayEntries entries updates) =
      match lookup s updates with
      | some new => some (overlay (lookup s entries) new)
      | none => lookup s entries := by
  rw [lookup_eq, lookup_eq, lookup_eq, binding?_overlayEntries distinct]
  cases binding? (true, s) updates <;> rfl

theorem IsTable.overlayEntries (table : IsTable entries) (tableUpdates : IsTable updates) :
    IsTable (Value.overlayEntries entries updates) := by
  apply of_binding? (distinct_overlayEntries table.distinct _)
  intro t
  rw [binding?_overlayEntries tableUpdates.distinct, tableUpdates.binding?_false, table.binding?_false]

end Overlaying

/-! ## Overlays up to the order of entries -/

section Overlays

variable {entries updates : List (Value × Value)} {entry : Value × Value} {old older : Option Value}
  {new newer : Value}

theorem KeysDiffer.distinct (differ : (map entries).KeysDiffer keyName) : Distinct entries :=
  distinct_iff_nodup.mpr (Value.keysDiffer_iff.mp differ).1

theorem KeysDiffer.item (differ : (map entries).KeysDiffer keyName) (member : entry ∈ entries) :
    entry.2.KeysDiffer keyName :=
  (Value.keysDiffer_iff.mp differ).2 _ (List.mem_map.mpr ⟨entry, member, rfl⟩)

/-- Either entries are laid over entries or something new takes the place of what was there. -/
theorem overlay_cases (old : Option Value) (new : Value) :
    (∃ entries updates, old = some (.map entries) ∧ new = .map updates) ∨ overlay old new = new := by
  by_cases maps : ∃ entries updates, old = some (.map entries) ∧ new = .map updates
  · exact .inl maps
  · exact .inr (overlay_of_notMap fun entries updates sameOld sameNew => maps ⟨entries, updates, sameOld, sameNew⟩)

/-- Keys that differ at any depth still do after one value was laid over another. -/
theorem keysDiffer_overlay (differOld : ∀ v ∈ old, v.KeysDiffer keyName) (differNew : new.KeysDiffer keyName) :
    (overlay old new).KeysDiffer keyName := by
  induction new using induction_parts generalizing old with
  | step new ih =>
    rcases overlay_cases old new with ⟨entries, updates, rfl, rfl⟩ | replaced
    · have differEntries := differOld _ rfl
      have distinct := distinct_overlayEntries differEntries.distinct updates
      rw [overlay_map, Value.keysDiffer_iff]
      refine ⟨distinct_iff_nodup.mp distinct, List.forall_mem_map.mpr fun entry member => ?_⟩
      have found := binding?_of_mem distinct member
      rw [binding?_overlayEntries differNew.distinct] at found
      cases update : binding? entry.1.keyName updates with
      | none =>
        rw [update] at found
        exact differEntries.item (mem_of_binding? found)
      | some pair =>
        rw [update] at found
        rw [← Option.some.inj found]
        have among := mem_of_binding? update
        refine ih pair.2 (List.mem_map.mpr ⟨pair, among, rfl⟩) (fun v present => ?_) (differNew.item among)
        obtain ⟨other, here, rfl⟩ := Option.map_eq_some_iff.mp present
        exact differEntries.item (mem_of_binding? here)
    · rwa [replaced]

/-- Entries that match are laid over entries that match, item by item. -/
theorem matches_overlayEntries {others newest : List (Value × Value)} (sameEntries : Matches entries others)
    (sameUpdates : Matches updates newest) (distinct : Distinct updates) (distinctNewest : Distinct newest)
    (sameItems : ∀ update ∈ updates, ∀ name other newItem,
      Option.Rel Reordered ((binding? name entries).map Prod.snd) other → Reordered update.2 newItem →
        Reordered (overlay ((binding? name entries).map Prod.snd) update.2) (overlay other newItem)) :
    Matches (overlayEntries entries updates) (overlayEntries others newest) := by
  intro name
  have standing := sameEntries name
  have laid := sameUpdates name
  have items : ∀ update ∈ binding? name updates, _ := fun update found =>
    sameItems update (mem_of_binding? found) name
  rw [binding?_overlayEntries distinct, binding?_overlayEntries distinctNewest]
  generalize binding? name updates = update at laid items ⊢
  generalize binding? name newest = newUpdate at laid ⊢
  generalize binding? name entries = left at standing items ⊢
  generalize binding? name others = right at standing ⊢
  cases laid with
  | none => exact standing
  | @some update newUpdate alike =>
    cases standing with
    | none => exact .some ⟨alike.1, items update rfl _ _ .none alike.2⟩
    | some same => exact .some ⟨same.1, items update rfl _ _ (.some same.2) alike.2⟩

/-- Either entries are laid over entries on both sides or what is new takes the place of what was there. -/
theorem overlay_cases_of_reordered (sameOld : Option.Rel Reordered old older) (sameNew : Reordered new newer) :
    (∃ entries others updates newest, old = some (.map entries) ∧ older = some (.map others) ∧
      new = .map updates ∧ newer = .map newest) ∨ (overlay old new = new ∧ overlay older newer = newer) := by
  by_cases maps : ∃ entries updates, old = some (.map entries) ∧ new = .map updates
  · obtain ⟨entries, updates, rfl, rfl⟩ := maps
    cases sameOld with
    | some sameEntries =>
      obtain ⟨others, rfl⟩ := sameEntries.exists_map
      obtain ⟨newest, rfl⟩ := sameNew.exists_map
      exact .inl ⟨entries, others, updates, newest, rfl, rfl, rfl, rfl⟩
  · refine .inr ⟨overlay_of_notMap fun entries updates isMap isNew => maps ⟨entries, updates, isMap, isNew⟩,
      overlay_of_notMap fun others newest isMap isNew => ?_⟩
    subst isMap isNew
    cases sameOld with
    | some sameEntries =>
      obtain ⟨entries, rfl⟩ := sameEntries.symm.exists_map
      obtain ⟨updates, rfl⟩ := sameNew.symm.exists_map
      exact maps ⟨entries, updates, rfl, rfl⟩

/-- The order of entries does not matter on either side of an overlay. -/
theorem Reordered.overlay (sameOld : Option.Rel Reordered old older) (sameNew : Reordered new newer)
    (differOld : ∀ v ∈ old, v.KeysDiffer keyName) (differNew : new.KeysDiffer keyName) :
    Reordered (Value.overlay old new) (Value.overlay older newer) := by
  induction new using induction_parts generalizing old older newer with
  | step new ih =>
    rcases overlay_cases_of_reordered sameOld sameNew with
      ⟨entries, others, updates, newest, rfl, rfl, rfl, rfl⟩ | ⟨replaced, replacedNewer⟩
    · have sameEntries := Option.rel_some_some.mp sameOld
      have differ := differOld _ rfl
      have distinctOthers : Distinct others := sameEntries.distinct_iff.mp differ.distinct
      have distinctNewest : Distinct newest := sameNew.distinct_iff.mp differNew.distinct
      rw [overlay_map, overlay_map]
      apply reordered_of_matches (distinct_overlayEntries differ.distinct _)
        (distinct_overlayEntries distinctOthers _)
      apply matches_overlayEntries (sameEntries.matches differ.distinct) (sameNew.matches differNew.distinct)
        differNew.distinct distinctNewest
      intro update member name other newItem sameItem sameUpdate
      apply ih update.2 (List.mem_map.mpr ⟨update, member, rfl⟩) sameItem sameUpdate
      · intro v present
        obtain ⟨entry, found, rfl⟩ := Option.map_eq_some_iff.mp present
        exact differ.item (mem_of_binding? found)
      · exact differNew.item member
    · rwa [replaced, replacedNewer]

end Overlays

end GraphQuery.Value
