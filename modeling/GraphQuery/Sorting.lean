/-! # Stable sorting

Everything that is sorted here is sorted by insertion: a new element goes in front of the first
one that is not less than it, and elements are inserted from the last to the first. So equal
elements keep their order. `stableSort_perm` and `pairwise_stableSort` say that the result is a
sorted permutation, `stableSort_eq_self` that a sorted list is left alone.
-/

namespace GraphQuery

variable {Item : Type}

/-- Puts an element in front of the first one that it may precede. -/
def insertSorted (le : Item → Item → Bool) (item : Item) : List Item → List Item
  | [] => [item]
  | first :: rest =>
    if le item first then item :: first :: rest else first :: insertSorted le item rest

/-- Sorts a list; elements that precede each other both ways keep their order. -/
def stableSort (le : Item → Item → Bool) : List Item → List Item
  | [] => []
  | item :: rest => insertSorted le item (stableSort le rest)

theorem insertSorted_perm (le : Item → Item → Bool) (item : Item) (items : List Item) :
    (insertSorted le item items).Perm (item :: items) := by
  induction items with
  | nil => exact .refl _
  | cons first rest ih =>
    simp only [insertSorted]
    split
    · exact .refl _
    · exact (ih.cons first).trans (.swap item first rest)

theorem stableSort_perm (le : Item → Item → Bool) (items : List Item) :
    (stableSort le items).Perm items := by
  induction items with
  | nil => exact .refl _
  | cons item rest ih => exact (insertSorted_perm le item _).trans (ih.cons item)

theorem mem_stableSort {le : Item → Item → Bool} {item : Item} {items : List Item} :
    item ∈ stableSort le items ↔ item ∈ items :=
  (stableSort_perm le items).mem_iff

/-- Insertion keeps a list sorted. -/
theorem pairwise_insertSorted {le : Item → Item → Bool}
    (transitive : ∀ a b c, le a b = true → le b c = true → le a c = true)
    (total : ∀ a b, le a b = true ∨ le b a = true) (item : Item) {items : List Item}
    (sorted : items.Pairwise fun a b => le a b = true) :
    (insertSorted le item items).Pairwise fun a b => le a b = true := by
  induction items with
  | nil => simp [insertSorted]
  | cons first rest ih =>
    obtain ⟨below, sortedRest⟩ := List.pairwise_cons.mp sorted
    simp only [insertSorted]
    split
    · rename_i precedes
      refine List.pairwise_cons.mpr ⟨fun other member => ?_, sorted⟩
      rcases List.mem_cons.mp member with rfl | member
      · exact precedes
      · exact transitive _ _ _ precedes (below other member)
    · rename_i follows
      refine List.pairwise_cons.mpr ⟨fun other member => ?_, ih sortedRest⟩
      rcases List.mem_cons.mp ((insertSorted_perm le item rest).mem_iff.mp member) with rfl | member
      · exact (total other first).resolve_left follows
      · exact below other member

/-- The result is sorted. -/
theorem pairwise_stableSort {le : Item → Item → Bool}
    (transitive : ∀ a b c, le a b = true → le b c = true → le a c = true)
    (total : ∀ a b, le a b = true ∨ le b a = true) (items : List Item) :
    (stableSort le items).Pairwise fun a b => le a b = true := by
  induction items with
  | nil => exact .nil
  | cons item rest ih => exact pairwise_insertSorted transitive total item ih

/-- A sorted list is left as it is. -/
theorem stableSort_eq_self {le : Item → Item → Bool} {items : List Item}
    (sorted : items.Pairwise fun a b => le a b = true) : stableSort le items = items := by
  induction items with
  | nil => rfl
  | cons item rest ih =>
    obtain ⟨below, sortedRest⟩ := List.pairwise_cons.mp sorted
    rw [stableSort, ih sortedRest]
    cases rest with
    | nil => rfl
    | cons first rest => simp [insertSorted, below first (List.mem_cons_self ..)]

/-- Sorts by a text, in the order of code points. -/
def sortByText (text : Item → String) (items : List Item) : List Item :=
  stableSort (fun a b => decide (text a ≤ text b)) items

example : sortByText id ["b", "aa", "a"] = ["a", "aa", "b"] := by decide +kernel

end GraphQuery
