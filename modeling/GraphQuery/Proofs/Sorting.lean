import GraphQuery.Sorting
import Mathlib.Data.String.Basic
import Mathlib.Data.List.Basic
import Mathlib.Data.List.Chain
import Mathlib.Data.List.Forall2

/-! # What a sorted list depends on

A stable sort by a key forgets the order of elements with different keys and keeps the order of
elements with the same one. So it does not tell lists apart whose elements agree key by key, and
where different elements have different keys it does not tell permutations apart.
-/

namespace GraphQuery

/-- Lists have the same images exactly if their elements have, one by one. -/
theorem map_eq_map_iff_forall₂ {Item Other Image : Type} {f : Item → Image} {g : Other → Image}
    {items : List Item} {others : List Other} :
    items.map f = others.map g ↔ List.Forall₂ (fun a b => f a = g b) items others := by
  rw [← List.forall₂_eq_eq_eq, List.forall₂_map_left_iff, List.forall₂_map_right_iff]

variable {Item Key : Type} [LinearOrder Key]

private theorem insertSorted_congr {le other : Item → Item → Bool} {item : Item} {items : List Item}
    (same : ∀ b ∈ items, le item b = other item b) :
    insertSorted le item items = insertSorted other item items := by
  induction items with
  | nil => rfl
  | cons first rest ih =>
    obtain ⟨here, others⟩ := List.forall_mem_cons.mp same
    rw [insertSorted, insertSorted, here, ih others]

/-- Orders that agree on the elements of a list sort it in the same way. -/
theorem stableSort_congr {le other : Item → Item → Bool} {items : List Item}
    (same : ∀ a ∈ items, ∀ b ∈ items, le a b = other a b) :
    stableSort le items = stableSort other items := by
  induction items with
  | nil => rfl
  | cons item rest ih =>
    rw [stableSort, stableSort, ih fun a memberA b memberB =>
      same a (List.mem_cons_of_mem _ memberA) b (List.mem_cons_of_mem _ memberB)]
    exact insertSorted_congr fun b member => same item (List.mem_cons_self ..) b
      (List.mem_cons_of_mem _ (mem_stableSort.mp member))

/-! ## Sorting twice -/

section Twice

variable {Item : Type} {le : Item → Item → Bool}

private theorem isChain_insertSorted (total : ∀ a b, le a b = true ∨ le b a = true) (item : Item)
    {items : List Item} (sorted : items.IsChain fun a b => le a b = true) :
    (insertSorted le item items).IsChain fun a b => le a b = true := by
  induction items with
  | nil => exact .singleton item
  | cons first rest ih =>
    simp only [insertSorted]
    split
    · rename_i precedes
      exact .cons_cons precedes sorted
    · rename_i follows
      have back := (total first item).resolve_right follows
      have inserted := ih sorted.tail
      cases rest with
      | nil => exact .cons_cons back inserted
      | cons second rest =>
        by_cases before : le item second = true
        · rw [insertSorted, if_pos before] at inserted ⊢
          exact .cons_cons back inserted
        · rw [insertSorted, if_neg before] at inserted ⊢
          exact .cons_cons (List.isChain_cons_cons.mp sorted).1 inserted

/-- Neighbours in the result are in order, even if the order is not transitive. -/
theorem isChain_stableSort (total : ∀ a b, le a b = true ∨ le b a = true) (items : List Item) :
    (stableSort le items).IsChain fun a b => le a b = true := by
  induction items with
  | nil => exact .nil
  | cons item rest ih => exact isChain_insertSorted total item ih

/-- A list whose neighbours are in order is left as it is. -/
theorem stableSort_eq_self_of_isChain {items : List Item}
    (sorted : items.IsChain fun a b => le a b = true) : stableSort le items = items := by
  induction items with
  | nil => rfl
  | cons item rest ih =>
    rw [stableSort, ih sorted.tail]
    cases rest with
    | nil => rfl
    | cons first rest => rw [insertSorted, if_pos (List.isChain_cons_cons.mp sorted).1]

/-- Sorting a second time changes nothing. -/
theorem stableSort_stableSort (total : ∀ a b, le a b = true ∨ le b a = true) (items : List Item) :
    stableSort le (stableSort le items) = stableSort le items :=
  stableSort_eq_self_of_isChain (isChain_stableSort total items)

end Twice

/-! ## Sorting by a key -/

def sortByKey (key : Item → Key) (items : List Item) : List Item :=
  stableSort (fun a b => decide (key a ≤ key b)) items

theorem sortByText_eq_sortByKey (text : Item → String) (items : List Item) :
    sortByText text items = sortByKey text items := by
  unfold sortByText sortByKey
  congr

theorem sortByKey_perm (key : Item → Key) (items : List Item) : (sortByKey key items).Perm items :=
  stableSort_perm _ items

/-- The keys of a sorted list do not decrease. -/
theorem pairwise_sortByKey (key : Item → Key) (items : List Item) :
    (sortByKey key items).Pairwise fun a b => key a ≤ key b := by
  have sorted : (sortByKey key items).Pairwise fun a b => decide (key a ≤ key b) = true := by
    apply pairwise_stableSort
    · intro a b c first second
      simp only [decide_eq_true_eq] at first second ⊢
      exact first.trans second
    · intro a b
      simpa only [decide_eq_true_eq] using le_total (key a) (key b)
  simpa only [decide_eq_true_eq] using sorted

/-- A list whose keys do not decrease is left as it is. -/
theorem sortByKey_eq_self {key : Item → Key} {items : List Item}
    (sorted : items.Pairwise fun a b => key a ≤ key b) : sortByKey key items = items :=
  stableSort_eq_self (by simpa only [decide_eq_true_eq] using sorted)

theorem sortByKey_sortByKey (key : Item → Key) (items : List Item) :
    sortByKey key (sortByKey key items) = sortByKey key items :=
  sortByKey_eq_self (pairwise_sortByKey key items)

theorem sortByText_sortByText (text : Item → String) (items : List Item) :
    sortByText text (sortByText text items) = sortByText text items := by
  rw [sortByText_eq_sortByKey, sortByText_eq_sortByKey, sortByKey_sortByKey]

/-- Where different elements have different keys, a permutation is sorted to the same list. -/
theorem sortByKey_eq_of_perm {key : Item → Key} {items others : List Item}
    (separates : ∀ a ∈ items, ∀ b ∈ items, key a = key b → a = b) (perm : items.Perm others) :
    sortByKey key items = sortByKey key others := by
  have same : (sortByKey key items).Perm (sortByKey key others) :=
    (sortByKey_perm key items).trans (perm.trans (sortByKey_perm key others).symm)
  refine same.eq_of_pairwise ?_ (pairwise_sortByKey key items) (pairwise_sortByKey key others)
  intro a b memberA memberB below above
  have fromA : a ∈ items := (sortByKey_perm key items).mem_iff.mp memberA
  have fromB : b ∈ items := perm.mem_iff.mpr ((sortByKey_perm key others).mem_iff.mp memberB)
  exact separates a fromA b fromB (le_antisymm below above)

private theorem insertSorted_map {Other : Type} (le : Item → Item → Bool) (f : Other → Item) (item : Other)
    (items : List Other) :
    insertSorted le (f item) (items.map f) = (insertSorted (fun a b => le (f a) (f b)) item items).map f := by
  induction items with
  | nil => rfl
  | cons first rest ih =>
    simp only [List.map_cons, insertSorted]
    split
    · rfl
    · rw [ih, List.map_cons]

/-- Sorting goes through a map that takes an order to an order. -/
theorem stableSort_map {Other : Type} (le : Item → Item → Bool) (f : Other → Item) (items : List Other) :
    stableSort le (items.map f) = (stableSort (fun a b => le (f a) (f b)) items).map f := by
  induction items with
  | nil => rfl
  | cons item rest ih => rw [List.map_cons, stableSort, ih, insertSorted_map, stableSort]

/-- Sorting goes through a map that takes keys to keys. -/
theorem sortByKey_map {Other : Type} (key : Item → Key) (f : Other → Item) (items : List Other) :
    sortByKey key (items.map f) = (sortByKey (fun other => key (f other)) items).map f :=
  stableSort_map _ f items

/-- Lists with the same distinct keys in the same order are told apart by sorting them. -/
theorem eq_of_sortByKey_eq {key : Item → Key} {items others : List Item}
    (keys : items.map key = others.map key) (distinct : (items.map key).Nodup)
    (same : sortByKey key items = sortByKey key others) : items = others := by
  have perm : items.Perm others :=
    (sortByKey_perm key items).symm.trans (same ▸ sortByKey_perm key others)
  clear same
  induction items generalizing others with
  | nil => exact (List.nil_perm.mp perm).symm
  | cons item rest ih =>
    cases others with
    | nil => exact absurd perm.length_eq (by simp)
    | cons other others =>
      simp only [List.map_cons, List.cons.injEq, List.nodup_cons] at keys distinct
      have first : item = other := by
        rcases List.mem_cons.mp (perm.mem_iff.mp (List.mem_cons_self ..)) with same | later
        · exact same
        · exact absurd (keys.2 ▸ List.mem_map_of_mem later) distinct.1
      subst first
      rw [ih keys.2 distinct.2 ((List.perm_cons item).mp perm)]

/-! ## Places in a sorted list -/

private theorem pairwise_insertSorted_of_before {key : Item → Key} {r : Item → Item → Prop} {item : Item}
    {items : List Item} (before : ∀ other ∈ items, r item other)
    (sorted : items.Pairwise fun a b => key a < key b ∨ key a = key b ∧ r a b) :
    (insertSorted (fun a b => decide (key a ≤ key b)) item items).Pairwise
      fun a b => key a < key b ∨ key a = key b ∧ r a b := by
  induction items with
  | nil => exact List.pairwise_singleton _ item
  | cons first rest ih =>
    obtain ⟨below, sortedRest⟩ := List.pairwise_cons.mp sorted
    obtain ⟨-, beforeRest⟩ := List.forall_mem_cons.mp before
    simp only [insertSorted, decide_eq_true_eq]
    split
    · rename_i precedes
      refine List.pairwise_cons.mpr ⟨fun other member => ?_, sorted⟩
      have le : key item ≤ key other := by
        rcases List.mem_cons.mp member with rfl | later
        · exact precedes
        · exact precedes.trans ((below other later).elim le_of_lt fun same => same.1.le)
      exact le.lt_or_eq.imp id fun same => ⟨same, before other member⟩
    · rename_i follows
      refine List.pairwise_cons.mpr ⟨fun other member => ?_, ih beforeRest sortedRest⟩
      rcases List.mem_cons.mp ((insertSorted_perm _ item rest).mem_iff.mp member) with rfl | later
      · exact .inl (not_le.mp follows)
      · exact below other later

/-- Sorting leaves elements with one key in the order in which they were. -/
theorem pairwise_sortByKey_of_pairwise (key : Item → Key) {r : Item → Item → Prop} {items : List Item}
    (ordered : items.Pairwise r) :
    (sortByKey key items).Pairwise fun a b => key a < key b ∨ key a = key b ∧ r a b := by
  induction ordered with
  | nil => exact .nil
  | cons before _ ih =>
    exact pairwise_insertSorted_of_before (fun other member => before other (mem_stableSort.mp member)) ih

/-- A sorted list is read off in the order in which its places are sorted. -/
theorem map_some_sortByKey {key : Item → Key} {rank : Nat → Key} {items : List Item}
    (ranks : ∀ place item, items[place]? = some item → rank place = key item) :
    (sortByKey key items).map some =
      (sortByKey rank (List.range items.length)).map fun place => items[place]? := by
  have values : sortByKey key items = (sortByKey (fun entry => key entry.1) items.zipIdx).map Prod.fst := by
    rw [← sortByKey_map, List.zipIdx_map_fst]
  have places : sortByKey rank (List.range items.length) =
      (sortByKey (fun entry => rank entry.2) items.zipIdx).map Prod.snd := by
    rw [← sortByKey_map, List.zipIdx_map_snd, List.range_eq_range']
  have found : ∀ entry ∈ items.zipIdx, items[entry.2]? = some entry.1 :=
    fun _ member => List.mem_zipIdx_iff_getElem?.mp member
  have same : sortByKey (fun entry => rank entry.2) items.zipIdx =
      sortByKey (fun entry => key entry.1) items.zipIdx :=
    stableSort_congr fun a memberA b memberB => by
      simp only [ranks _ _ (found a memberA), ranks _ _ (found b memberB)]
  rw [values, places, same, List.map_map, List.map_map]
  exact List.map_congr_left fun entry member => (found entry (mem_stableSort.mp member)).symm

/-- In a list whose keys increase, one element directly follows another exactly if no key of the list
is between theirs. -/
theorem pair_infix_iff {key : Item → Key} {items : List Item}
    (increasing : items.Pairwise fun a b => key a < key b) {first second : Item} :
    [first, second] <:+: items ↔ first ∈ items ∧ second ∈ items ∧ key first < key second ∧
      ∀ other ∈ items, key other ≤ key first ∨ key second ≤ key other := by
  constructor
  · rintro ⟨before, after, rfl⟩
    rw [List.append_assoc, List.pairwise_append] at increasing
    obtain ⟨-, inner, across⟩ := increasing
    obtain ⟨belowFirst, tail⟩ := List.pairwise_cons.mp inner
    obtain ⟨belowSecond, -⟩ := List.pairwise_cons.mp tail
    refine ⟨by simp, by simp, belowFirst second (by simp), fun other member => ?_⟩
    simp only [List.mem_append, List.mem_cons, List.not_mem_nil, or_false] at member
    rcases member with (earlier | rfl | rfl) | later
    · exact .inl (across other earlier first (by simp)).le
    · exact .inl le_rfl
    · exact .inr le_rfl
    · exact .inr (belowSecond other later).le
  · rintro ⟨memberFirst, memberSecond, less, nothing⟩
    obtain ⟨before, after, rfl⟩ := List.append_of_mem memberFirst
    obtain ⟨-, inner, across⟩ := List.pairwise_append.mp increasing
    obtain ⟨belowFirst, tail⟩ := List.pairwise_cons.mp inner
    have later : second ∈ after := by
      rcases List.mem_append.mp memberSecond with earlier | member
      · exact absurd less (across second earlier first (List.mem_cons_self ..)).not_gt
      · rcases List.mem_cons.mp member with rfl | member
        · exact absurd less (lt_irrefl _)
        · exact member
    cases after with
    | nil => cases later
    | cons next after =>
      -- the next key is greater than the first one, so it cannot be less than the second one
      have reached : key second ≤ key next :=
        (nothing next (by simp)).resolve_left (belowFirst next (List.mem_cons_self ..)).not_ge
      rcases List.mem_cons.mp later with rfl | beyond
      · exact ⟨before, after, by simp⟩
      · exact absurd reached ((List.pairwise_cons.mp tail).1 second beyond).not_ge

/-! ## Elements with one key -/

section Classes

variable (key : Item → Key)

/-- The elements with one key, in their order. -/
def ofKey (value : Key) (items : List Item) : List Item :=
  items.filter fun item => decide (key item = value)

variable {key}

private theorem ofKey_insertSorted (value : Key) (item : Item) (items : List Item) :
    ofKey key value (insertSorted (fun a b => decide (key a ≤ key b)) item items) =
      ofKey key value (item :: items) := by
  induction items with
  | nil => rfl
  | cons first rest ih =>
    simp only [insertSorted, decide_eq_true_eq]
    split
    · rfl
    · rename_i above
      simp only [ofKey, List.filter_cons, decide_eq_true_eq] at ih ⊢
      rw [ih]
      -- only an element with a greater key is passed, so at most one of the two is kept
      by_cases same : key item = value <;> by_cases other : key first = value <;> simp_all

/-- Sorting keeps the order of the elements with one key. -/
theorem ofKey_sortByKey (value : Key) (items : List Item) :
    ofKey key value (sortByKey key items) = ofKey key value items := by
  induction items with
  | nil => rfl
  | cons item rest ih =>
    calc ofKey key value (sortByKey key (item :: rest))
        = ofKey key value (item :: sortByKey key rest) := ofKey_insertSorted value item _
      _ = ofKey key value (item :: rest) := by
        simp only [ofKey, List.filter_cons] at ih ⊢
        rw [ih]

/-- Whether a list has the elements of another one in the order of their keys, and elements with one key
in the order in which the other list has them. -/
structure IsStableSort (key : Item → Key) (items sorted : List Item) : Prop where
  perm : sorted.Perm items
  ordered : sorted.Pairwise fun a b => key a ≤ key b
  stable : ∀ value, ofKey key value sorted = ofKey key value items

theorem isStableSort_sortByKey (items : List Item) : IsStableSort key items (sortByKey key items) where
  perm := sortByKey_perm key items
  ordered := pairwise_sortByKey key items
  stable value := ofKey_sortByKey value items

private theorem mem_of_ofKey_eq {items others : List Item}
    (same : ∀ value, ofKey key value items = ofKey key value others) {item : Item}
    (member : item ∈ items) : item ∈ others := by
  have kept : item ∈ ofKey key (key item) items := List.mem_filter.mpr ⟨member, by simp⟩
  rw [same] at kept
  exact (List.mem_filter.mp kept).1

private theorem eq_of_ofKey_eq {items others : List Item}
    (sorted : items.Pairwise fun a b => key a ≤ key b)
    (sortedOthers : others.Pairwise fun a b => key a ≤ key b)
    (same : ∀ value, ofKey key value items = ofKey key value others) : items = others := by
  induction items generalizing others with
  | nil =>
    cases others with
    | nil => rfl
    | cons first rest =>
      have impossible := mem_of_ofKey_eq (fun value => (same value).symm) (List.mem_cons_self ..)
      simp at impossible
  | cons item rest ih =>
    cases others with
    | nil => simpa using mem_of_ofKey_eq same (List.mem_cons_self ..)
    | cons first others =>
      obtain ⟨below, sortedRest⟩ := List.pairwise_cons.mp sorted
      obtain ⟨belowOthers, sortedTail⟩ := List.pairwise_cons.mp sortedOthers
      have least : key item = key first := by
        apply le_antisymm
        · rcases List.mem_cons.mp (mem_of_ofKey_eq (fun value => (same value).symm)
            (List.mem_cons_self ..)) with rfl | member
          · exact le_rfl
          · exact below first member
        · rcases List.mem_cons.mp (mem_of_ofKey_eq same (List.mem_cons_self ..)) with rfl | member
          · exact le_rfl
          · exact belowOthers item member
      have heads := same (key item)
      simp only [ofKey, List.filter_cons, decide_true, ↓reduceIte, ← least, List.cons.injEq] at heads
      obtain ⟨rfl, -⟩ := heads
      congr 1
      refine ih sortedRest sortedTail fun value => ?_
      have tails := same value
      simp only [ofKey, List.filter_cons] at tails ⊢
      split at tails <;> simp_all

/-- Lists that agree on the elements with each key are sorted to the same list. -/
theorem sortByKey_eq_of_ofKey {items others : List Item}
    (same : ∀ value, ofKey key value items = ofKey key value others) :
    sortByKey key items = sortByKey key others := by
  refine eq_of_ofKey_eq (pairwise_sortByKey key items) (pairwise_sortByKey key others) fun value => ?_
  rw [ofKey_sortByKey, ofKey_sortByKey, same]

/-- If sorting what a function makes of a list forgets the order of the list, it makes the same of
elements with one key. -/
theorem eq_of_sortByKey_perm {Origin : Type} {f : Origin → Item} {items : List Origin}
    (forgets : ∀ others, items.Perm others → sortByKey key (others.map f) = sortByKey key (items.map f))
    {a b : Origin} (memberA : a ∈ items) (memberB : b ∈ items) (same : key (f a) = key (f b)) :
    f a = f b := by
  by_contra different
  obtain ⟨before, after, rfl⟩ := List.append_of_mem memberA
  have later : b ∈ before ++ after := by
    rcases List.mem_append.mp memberB with earlier | behind
    · exact List.mem_append_left _ earlier
    · have apart : b ≠ a := fun equal => different (by rw [equal])
      exact List.mem_append_right _ (List.mem_of_ne_of_mem apart behind)
  obtain ⟨front, rest, split⟩ := List.append_of_mem later
  have second : (before ++ after).Perm (b :: (front ++ rest)) := by
    rw [split]
    exact List.perm_middle
  have first : (before ++ a :: after).Perm (a :: b :: (front ++ rest)) :=
    List.perm_middle.trans (second.cons a)
  have swapped := (forgets _ first).trans (forgets _ (first.trans (.swap b a _))).symm
  -- the elements with their key come in either order
  have kept := congrArg (ofKey key (key (f b))) swapped
  rw [ofKey_sortByKey, ofKey_sortByKey] at kept
  simp only [ofKey, List.map_cons, List.filter_cons, same, decide_true, ↓reduceIte, List.cons.injEq] at kept
  exact different kept.1

end Classes

end GraphQuery
