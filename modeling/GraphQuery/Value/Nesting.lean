import GraphQuery.Value.Copy

/-! # Nested values

A value is followed level by level, and what is nested too deeply cannot be followed to its end. A copy
is nested as deeply as its original.
-/

namespace GraphQuery

namespace Value

mutual

/-- Whether collections are nested no deeper than a number of levels. -/
def nestsWithin : Value → (levels : Nat) → Bool
  | .list items, levels => levels != 0 && itemsNestWithin items (levels - 1)
  | .tuple items, levels => levels != 0 && itemsNestWithin items (levels - 1)
  | .set _ items, levels => levels != 0 && itemsNestWithin items (levels - 1)
  | .map entries, levels => levels != 0 && entriesNestWithin entries (levels - 1)
  | _, _ => true

/-- Whether the collections in several values are nested no deeper than a number of levels. -/
def itemsNestWithin : List Value → (levels : Nat) → Bool
  | [], _ => true
  | item :: rest, levels => nestsWithin item levels && itemsNestWithin rest levels

/-- Whether the collections in entries are nested no deeper than a number of levels. -/
def entriesNestWithin : List (Value × Value) → (levels : Nat) → Bool
  | [], _ => true
  | (key, item) :: rest, levels =>
    nestsWithin key levels && nestsWithin item levels && entriesNestWithin rest levels

end

theorem itemsNestWithin_eq_all (items : List Value) (levels : Nat) :
    itemsNestWithin items levels = items.all fun item => item.nestsWithin levels := by
  induction items with
  | nil => rfl
  | cons item rest ih => rw [itemsNestWithin, ih, List.all_cons]

theorem entriesNestWithin_eq_all (entries : List (Value × Value)) (levels : Nat) :
    entriesNestWithin entries levels =
      entries.all fun entry => entry.1.nestsWithin levels && entry.2.nestsWithin levels := by
  induction entries with
  | nil => rfl
  | cons entry rest ih => rw [entriesNestWithin, ih, List.all_cons]

mutual

/-- What is nested within a number of levels is nested within any larger one. -/
theorem nestsWithin_mono : (v : Value) → {few many : Nat} → few ≤ many → v.nestsWithin few = true →
    v.nestsWithin many = true
  | .list items, _, _, more, within | .tuple items, _, _, more, within | .set _ items, _, _, more, within => by
    simp only [nestsWithin, Bool.and_eq_true, bne_iff_ne] at within ⊢
    exact ⟨by omega, itemsNestWithin_mono items (by omega) within.2⟩
  | .map entries, _, _, more, within => by
    simp only [nestsWithin, Bool.and_eq_true, bne_iff_ne] at within ⊢
    exact ⟨by omega, entriesNestWithin_mono entries (by omega) within.2⟩
  | .null, _, _, _, _ | .bool _, _, _, _, _ | .int _, _, _, _, _ | .float _, _, _, _, _ | .text _, _, _, _, _
  | .external _ _, _, _, _, _ | .entity _, _, _, _, _ | .record _, _, _, _, _ => rfl

private theorem itemsNestWithin_mono : (items : List Value) → {few many : Nat} → few ≤ many →
    itemsNestWithin items few = true → itemsNestWithin items many = true
  | [], _, _, _, _ => rfl
  | item :: rest, _, _, more, within => by
    simp only [itemsNestWithin, Bool.and_eq_true] at within ⊢
    exact ⟨nestsWithin_mono item more within.1, itemsNestWithin_mono rest more within.2⟩

private theorem entriesNestWithin_mono : (entries : List (Value × Value)) → {few many : Nat} → few ≤ many →
    entriesNestWithin entries few = true → entriesNestWithin entries many = true
  | [], _, _, _, _ => rfl
  | (key, item) :: rest, _, _, more, within => by
    simp only [entriesNestWithin, Bool.and_eq_true] at within ⊢
    exact ⟨⟨nestsWithin_mono key more within.1.1, nestsWithin_mono item more within.1.2⟩,
      entriesNestWithin_mono rest more within.2⟩

end

section Copies

variable {arrange : List Value → List Value} (permutes : ∀ items, (arrange items).Perm items)
include permutes

set_option linter.unusedSectionVars false

mutual

/-- A copy is nested as deeply as its original. -/
theorem nestsWithin_copied : (v : Value) → (levels : Nat) →
    (v.copied arrange).nestsWithin levels = v.nestsWithin levels
  | .list items, levels | .tuple items, levels => by
    rw [copied, nestsWithin, nestsWithin, itemsNestWithin_copiedItems]
  | .set _ items, levels => by
    rw [copied, nestsWithin, nestsWithin, itemsNestWithin_eq_all, (permutes _).all_eq,
      ← itemsNestWithin_eq_all, itemsNestWithin_copiedItems]
  | .map entries, levels => by
    rw [copied, nestsWithin, nestsWithin, entriesNestWithin_copiedEntries]
  | .null, _ | .bool _, _ | .int _, _ | .float _, _ | .text _, _ | .external _ _, _ | .entity _, _
  | .record _, _ => rfl

private theorem itemsNestWithin_copiedItems : (items : List Value) → (levels : Nat) →
    itemsNestWithin (copiedItems arrange items) levels = itemsNestWithin items levels
  | [], _ => rfl
  | item :: rest, levels => by
    rw [copiedItems, itemsNestWithin, itemsNestWithin, nestsWithin_copied item,
      itemsNestWithin_copiedItems rest]

private theorem entriesNestWithin_copiedEntries : (entries : List (Value × Value)) → (levels : Nat) →
    entriesNestWithin (copiedEntries arrange entries) levels = entriesNestWithin entries levels
  | [], _ => rfl
  | (key, item) :: rest, levels => by
    rw [copiedEntries, entriesNestWithin, entriesNestWithin, nestsWithin_copied key,
      nestsWithin_copied item, entriesNestWithin_copiedEntries rest]

end

end Copies

end Value

end GraphQuery
