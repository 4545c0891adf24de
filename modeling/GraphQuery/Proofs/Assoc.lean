import GraphQuery.Assoc
import Mathlib.Algebra.BigOperators.Group.List.Basic
import Mathlib.Algebra.GroupWithZero.Nat
import Mathlib.Data.List.Induction
import Mathlib.Data.List.Nodup

/-! # Keys of association lists

Writing to an association list keeps its keys distinct, so that a list built by writing pairs one
after another has distinct keys. Pairs with distinct keys are written as they stand.
-/

namespace GraphQuery.Assoc

variable {Key Item : Type} [DecidableEq Key]

theorem mem_of_get? {key : Key} {item : Item} {entries : List (Key × Item)}
    (found : get? key entries = some item) : (key, item) ∈ entries := by
  induction entries with
  | nil => cases found
  | cons entry rest ih =>
    obtain ⟨k, first⟩ := entry
    rw [get?_cons] at found
    split at found
    · rename_i same
      obtain rfl := Option.some.inj found
      exact same ▸ List.mem_cons_self ..
    · exact List.mem_cons_of_mem _ (ih found)

/-- Dropping other pairs does not hide the pair that is found. -/
theorem get?_filter {key : Key} {item : Item} {entries : List (Key × Item)} {keep : Key × Item → Bool}
    (found : get? key entries = some item) (kept : keep (key, item) = true) :
    get? key (entries.filter keep) = some item := by
  induction entries with
  | nil => cases found
  | cons entry rest ih =>
    obtain ⟨k, first⟩ := entry
    rw [get?_cons] at found
    split at found
    · rename_i same
      obtain rfl := Option.some.inj found
      subst same
      rw [List.filter_cons_of_pos kept, get?_cons, if_pos rfl]
    · rename_i different
      rw [List.filter_cons]
      split
      · rw [get?_cons, if_neg different, ih found]
      · exact ih found

/-- Where keys are distinct, the pair that is found is the only one with its key. -/
theorem eq_of_get?_of_mem {key : Key} {item other : Item} {entries : List (Key × Item)}
    (distinct : (entries.map Prod.fst).Nodup) (found : get? key entries = some item)
    (member : (key, other) ∈ entries) : other = item :=
  (Prod.mk.inj (List.inj_on_of_nodup_map distinct member (mem_of_get? found) rfl)).2

/-- Where keys are distinct, every pair is found under its key. -/
theorem get?_of_mem {key : Key} {item : Item} {entries : List (Key × Item)}
    (distinct : (entries.map Prod.fst).Nodup) (member : (key, item) ∈ entries) :
    get? key entries = some item := by
  induction entries with
  | nil => cases member
  | cons entry rest ih =>
    obtain ⟨k, first⟩ := entry
    obtain ⟨absent, distinctRest⟩ := List.nodup_cons.mp distinct
    rw [get?_cons]
    rcases List.mem_cons.mp member with same | later
    · cases same
      rw [if_pos rfl]
    · have different : k ≠ key := by
        rintro rfl
        exact absent (List.mem_map.mpr ⟨_, later, rfl⟩)
      rw [if_neg different, ih distinctRest later]

theorem eq_or_mem_of_mem_put {key : Key} {item : Item} {entry : Key × Item} {entries : List (Key × Item)}
    (member : entry ∈ put key item entries) : entry = (key, item) ∨ entry ∈ entries := by
  induction entries with
  | nil => exact .inl (List.mem_singleton.mp member)
  | cons first rest ih =>
    obtain ⟨k, old⟩ := first
    rw [put] at member
    split at member
    · rename_i same
      rcases List.mem_cons.mp member with rfl | later
      · exact .inl (same ▸ rfl)
      · exact .inr (List.mem_cons_of_mem _ later)
    · rcases List.mem_cons.mp member with rfl | later
      · exact .inr (List.mem_cons_self ..)
      · exact (ih later).imp id (List.mem_cons_of_mem _)

theorem put_of_notMem {key : Key} {entries : List (Key × Item)} (absent : key ∉ entries.map Prod.fst)
    (item : Item) : put key item entries = entries ++ [(key, item)] := by
  induction entries with
  | nil => rfl
  | cons entry rest ih =>
    rw [List.map_cons, List.mem_cons, not_or] at absent
    rw [put, if_neg (Ne.symm absent.1), ih absent.2, List.cons_append]

theorem map_fst_put_of_mem {key : Key} {entries : List (Key × Item)} (present : key ∈ entries.map Prod.fst)
    (item : Item) : (put key item entries).map Prod.fst = entries.map Prod.fst := by
  induction entries with
  | nil => cases present
  | cons entry rest ih =>
    obtain ⟨k, old⟩ := entry
    rw [put]
    split
    · rfl
    · rename_i different
      have later := (List.mem_cons.mp present).resolve_left (Ne.symm different)
      rw [List.map_cons, ih later, List.map_cons]

theorem nodup_put {entries : List (Key × Item)} (distinct : (entries.map Prod.fst).Nodup) (key : Key)
    (item : Item) : ((put key item entries).map Prod.fst).Nodup := by
  by_cases present : key ∈ entries.map Prod.fst
  · rwa [map_fst_put_of_mem present]
  · rw [put_of_notMem present, List.map_append, List.nodup_append]
    refine ⟨distinct, List.nodup_singleton _, ?_⟩
    rintro k among _ (_ | ⟨_, ⟨⟩⟩) rfl
    exact present among

theorem forall_mem_put {Good : Item → Prop} {entries : List (Key × Item)}
    (good : ∀ entry ∈ entries, Good entry.2) (key : Key) {item : Item} (goodItem : Good item) :
    ∀ entry ∈ put key item entries, Good entry.2 := by
  induction entries with
  | nil => simpa [put] using goodItem
  | cons entry rest ih =>
    obtain ⟨k, old⟩ := entry
    obtain ⟨first, others⟩ := List.forall_mem_cons.mp good
    rw [put]
    split
    · exact List.forall_mem_cons.mpr ⟨goodItem, others⟩
    · exact List.forall_mem_cons.mpr ⟨first, ih others⟩

theorem nodup_ofPairs (pairs : List (Key × Item)) : ((ofPairs pairs).map Prod.fst).Nodup := by
  suffices kept : ∀ entries : List (Key × Item), (entries.map Prod.fst).Nodup →
      ((pairs.foldl (fun entries pair => put pair.1 pair.2 entries) entries).map Prod.fst).Nodup from
    kept [] List.nodup_nil
  induction pairs with
  | nil => exact fun _ distinct => distinct
  | cons pair rest ih => exact fun entries distinct => ih _ (nodup_put distinct _ _)

/-- A list built by writing pairs has only items of these pairs. -/
theorem forall_mem_ofPairs {Good : Item → Prop} {pairs : List (Key × Item)}
    (good : ∀ pair ∈ pairs, Good pair.2) : ∀ entry ∈ ofPairs pairs, Good entry.2 := by
  suffices kept : ∀ entries : List (Key × Item), (∀ entry ∈ entries, Good entry.2) →
      ∀ entry ∈ pairs.foldl (fun entries pair => put pair.1 pair.2 entries) entries, Good entry.2 from
    kept [] (by simp)
  induction pairs with
  | nil => exact fun _ kept => kept
  | cons pair rest ih =>
    obtain ⟨first, others⟩ := List.forall_mem_cons.mp good
    exact fun entries kept => ih others _ (forall_mem_put kept pair.1 first)

theorem ofPairs_eq_self {pairs : List (Key × Item)} (distinct : (pairs.map Prod.fst).Nodup) :
    ofPairs pairs = pairs := by
  suffices written : ∀ before : List (Key × Item), ((before ++ pairs).map Prod.fst).Nodup →
      pairs.foldl (fun entries pair => put pair.1 pair.2 entries) before = before ++ pairs from
    written [] distinct
  clear distinct
  induction pairs with
  | nil => exact fun before _ => (List.append_nil before).symm
  | cons pair rest ih =>
    intro before distinct
    have absent : pair.1 ∉ before.map Prod.fst := by
      rw [List.map_append, List.nodup_append] at distinct
      intro among
      exact distinct.2.2 _ among _ (List.mem_cons_self ..) rfl
    rw [List.foldl_cons, put_of_notMem absent, ih, List.append_assoc, List.singleton_append]
    rwa [List.append_assoc, List.singleton_append]

/-! ## Lists built by writing pairs -/

theorem ofPairs_append_singleton (pairs : List (Key × Item)) (pair : Key × Item) :
    ofPairs (pairs ++ [pair]) = put pair.1 pair.2 (ofPairs pairs) := by
  rw [ofPairs, List.foldl_append]
  rfl

/-- The keys of a list built by writing pairs stand in the order of their first pairs. -/
theorem map_fst_ofPairs (pairs : List (Key × Item)) :
    (ofPairs pairs).map Prod.fst = (pairs.map Prod.fst).eraseDups := by
  induction pairs using List.reverseRecOn with
  | nil => rfl
  | append_singleton pairs pair ih =>
    have member : pair.1 ∈ (ofPairs pairs).map Prod.fst ↔ pair.1 ∈ pairs.map Prod.fst := by
      rw [ih, List.mem_eraseDups]
    rw [ofPairs_append_singleton, List.map_append, List.eraseDups_append, ← ih]
    by_cases present : pair.1 ∈ pairs.map Prod.fst
    · rw [map_fst_put_of_mem (member.mpr present)]
      simp [List.removeAll, present]
    · rw [put_of_notMem (mt member.mp present)]
      simp [List.removeAll, present, List.eraseDups_cons]

/-- Writing to a key that is present replaces an entry. -/
theorem sum_put_lt {weight : Key × Item → ℕ} (positive : ∀ entry, 0 < weight entry) {key : Key}
    {entries : List (Key × Item)} (present : key ∈ entries.map Prod.fst) (item : Item) :
    ((put key item entries).map weight).sum < (entries.map weight).sum + weight (key, item) := by
  induction entries with
  | nil => cases present
  | cons entry rest ih =>
    obtain ⟨k, old⟩ := entry
    rw [put]
    split
    · rename_i same
      subst same
      have replaced := positive (k, old)
      simp only [List.map_cons, List.sum_cons]
      omega
    · rename_i different
      have fewer := ih ((List.mem_cons.mp present).resolve_left (Ne.symm different))
      simp only [List.map_cons, List.sum_cons]
      omega

/-- If pairs are written that have a key in common, some of them are lost. -/
theorem sum_ofPairs_lt {weight : Key × Item → ℕ} (positive : ∀ entry, 0 < weight entry)
    {pairs : List (Key × Item)} (shared : ¬(pairs.map Prod.fst).Nodup) :
    ((ofPairs pairs).map weight).sum < (pairs.map weight).sum := by
  induction pairs using List.reverseRecOn with
  | nil => exact absurd List.nodup_nil shared
  | append_singleton pairs pair ih =>
    obtain ⟨key, item⟩ := pair
    have member : key ∈ (ofPairs pairs).map Prod.fst ↔ key ∈ pairs.map Prod.fst := by
      rw [map_fst_ofPairs, List.mem_eraseDups]
    have total : ((pairs ++ [(key, item)]).map weight).sum = (pairs.map weight).sum + weight (key, item) := by simp
    rw [ofPairs_append_singleton, total]
    by_cases distinct : (pairs.map Prod.fst).Nodup
    · have present : key ∈ pairs.map Prod.fst := by
        by_contra absent
        refine shared ?_
        rw [List.map_append, List.map_singleton, ← List.concat_eq_append]
        exact distinct.concat absent
      have replaced := sum_put_lt positive (member.mpr present) item
      rwa [ofPairs_eq_self distinct] at replaced ⊢
    · have fewer := ih distinct
      by_cases present : key ∈ pairs.map Prod.fst
      · have replaced := sum_put_lt positive (member.mpr present) item
        dsimp only
        omega
      · rw [put_of_notMem (mt member.mp present), List.map_append, List.sum_append]
        simpa using fewer

/-- A key has the item of its last pair. -/
theorem get?_ofPairs (key : Key) (pairs : List (Key × Item)) :
    get? key (ofPairs pairs) = (pairs.filter fun pair => pair.1 = key).getLast?.map Prod.snd := by
  induction pairs using List.reverseRecOn with
  | nil => rfl
  | append_singleton pairs pair ih =>
    rw [ofPairs_append_singleton, List.filter_append]
    by_cases same : pair.1 = key
    · simp [← same]
    · rw [get?_put_of_ne (Ne.symm same), ih]
      simp [same]

end GraphQuery.Assoc
