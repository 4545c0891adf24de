import GraphQuery.Proofs.Assoc
import GraphQuery.Proofs.Resilience.Elapsed
import GraphQuery.Resilience.TimedCache

/-! # What a cache keeps

A result stays in a cache until it has expired or is stored anew: `get?_get?_of_kept` and
`get?_put_of_kept` say so for single operations. Looking a key up may remove a result, but only one
that is live at no later time, so that `live_get?` sees no difference.
-/

namespace GraphQuery

/-- What has not passed at a time had not passed before it. -/
theorem hasPassed_eq_false_of_le {milliseconds : Number} {start s t : Float} (begun : start ≤ s)
    (later : s ≤ t) (notPassed : hasPassed milliseconds start t = false) :
    hasPassed milliseconds start s = false := by
  by_contra passed
  rw [hasPassed_mono begun later (eq_true_of_ne_false passed)] at notPassed
  cases notPassed

namespace TimedCache

variable {Item : Type} {cache : TimedCache Item} {key other : String} {stored : Stored Item} {item : Item}
  {now time : Float}

/-- The results that are live at a time, under their keys. -/
def live (now : Float) (cache : TimedCache Item) : List (String × Item) :=
  (cache.prune now).entries.map fun entry => (entry.1, entry.2.item)

@[simp] theorem ttl_get? (key : String) (now : Float) (cache : TimedCache Item) :
    (cache.get? key now).2.ttl = cache.ttl := by
  unfold get?
  split
  · rfl
  · split <;> rfl

@[simp] theorem ttl_put (key : String) (item : Item) (now : Float) (cache : TimedCache Item) :
    (cache.put key item now).ttl = cache.ttl := rfl

/-! ## Caches that were filled in the past -/

/-- Every key of a cache has one result, and it was stored before a time. -/
structure IsFilledBy (now : Float) (cache : TimedCache Item) : Prop where
  distinct : (cache.entries.map Prod.fst).Nodup
  since_le : ∀ entry ∈ cache.entries, entry.2.since ≤ now

theorem isFilledBy_empty (ttl : Number) (now : Float) : (empty ttl : TimedCache Item).IsFilledBy now :=
  ⟨List.nodup_nil, by simp [empty]⟩

namespace IsFilledBy

theorem wait (filled : cache.IsFilledBy now) (later : now ≤ time) : cache.IsFilledBy time :=
  ⟨filled.distinct, fun entry member => FloatForm.le_trans (filled.since_le entry member) later⟩

private theorem filter (filled : cache.IsFilledBy now) (keep : String × Stored Item → Bool) :
    IsFilledBy now { cache with entries := cache.entries.filter keep } where
  distinct := filled.distinct.sublist (List.filter_sublist.map _)
  since_le entry member := filled.since_le entry (List.mem_of_mem_filter member)

theorem get? (filled : cache.IsFilledBy now) (key : String) (time : Float) :
    (cache.get? key time).2.IsFilledBy now := by
  unfold TimedCache.get?
  split
  · exact filled
  · split
    · exact filled.filter _
    · exact filled

theorem put (filled : cache.IsFilledBy now) (later : now ≤ time) (key : String) (item : Item) :
    (cache.put key item time).IsFilledBy time := by
  have pruned : (cache.prune time).IsFilledBy now := filled.filter _
  refine ⟨Assoc.nodup_put pruned.distinct _ _, fun entry member => ?_⟩
  rcases Assoc.eq_or_mem_of_mem_put member with rfl | member
  · exact FloatForm.le_self_of_le later
  · exact (pruned.wait later).since_le entry member

end IsFilledBy

/-! ## Looking up -/

theorem get?_of_kept (found : Assoc.get? key cache.entries = some stored)
    (kept : hasPassed cache.ttl stored.since now = false) : cache.get? key now = (some stored.item, cache) := by
  rw [get?, found]
  exact if_neg (by simp [isExpired, kept])

theorem exists_kept_of_get? (answered : (cache.get? key now).1 = some item) :
    ∃ stored, Assoc.get? key cache.entries = some stored ∧
      hasPassed cache.ttl stored.since now = false ∧ stored.item = item := by
  unfold get? at answered
  split at answered
  · cases answered
  · rename_i stored found
    split at answered
    · cases answered
    · rename_i kept
      exact ⟨stored, found, eq_false_of_ne_true kept, Option.some.inj answered⟩

/-- Looking a key up keeps what has not expired. -/
theorem get?_get?_of_kept (found : Assoc.get? key cache.entries = some stored)
    (kept : hasPassed cache.ttl stored.since now = false) (other : String) :
    Assoc.get? key (cache.get? other now).2.entries = some stored := by
  by_cases same : other = key
  · rw [same, get?_of_kept found kept]
    exact found
  · unfold get?
    split
    · exact found
    · split
      · exact Assoc.get?_filter found (by simp [Ne.symm same])
      · exact found

/-- Looking a key up makes no difference to what is live afterwards. -/
theorem live_get? (filled : cache.IsFilledBy now) (later : now ≤ time) (key : String) :
    live time (cache.get? key now).2 = live time cache := by
  unfold get?
  split
  · rfl
  · rename_i stored found
    split
    · rename_i expired
      have begun : stored.since ≤ now := filled.since_le (key, stored) (Assoc.mem_of_get? found)
      have gone : cache.isExpired time stored = true := by
        rw [isExpired] at expired ⊢
        exact hasPassed_mono begun later expired
      have entries_eq : (Assoc.erase key cache.entries).filter (fun entry => !cache.isExpired time entry.2) =
          cache.entries.filter fun entry => !cache.isExpired time entry.2 := by
        rw [Assoc.erase, List.filter_filter]
        apply List.filter_congr
        rintro ⟨k, result⟩ member
        by_cases same : k = key
        · subst same
          obtain rfl := Assoc.eq_of_get?_of_mem filled.distinct found member
          simp [gone]
        · simp [same]
      exact congrArg (List.map _) entries_eq
    · rfl

/-! ## Storing -/

theorem get?_put_self (key : String) (item : Item) (now : Float) (cache : TimedCache Item) :
    Assoc.get? key (cache.put key item now).entries = some ⟨now, item⟩ :=
  Assoc.get?_put_self ..

/-- Storing a result under another key keeps what has not expired. -/
theorem get?_put_of_kept (found : Assoc.get? key cache.entries = some stored)
    (kept : hasPassed cache.ttl stored.since now = false) (different : key ≠ other) (item : Item) :
    Assoc.get? key (cache.put other item now).entries = some stored := by
  rw [put, Assoc.get?_put_of_ne different]
  exact Assoc.get?_filter found (by simp [isExpired, kept])

/-- What is in a cache after storing a result was there before or is the result. -/
theorem eq_or_mem_of_mem_put {entry : String × Stored Item}
    (member : entry ∈ (cache.put key item now).entries) : entry = (key, ⟨now, item⟩) ∨ entry ∈ cache.entries :=
  (Assoc.eq_or_mem_of_mem_put member).imp id List.mem_of_mem_filter

theorem mem_of_mem_get? {entry : String × Stored Item} (member : entry ∈ (cache.get? key now).2.entries) :
    entry ∈ cache.entries := by
  unfold get? at member
  split at member
  · exact member
  · split at member
    · exact List.mem_of_mem_filter member
    · exact member

end TimedCache

end GraphQuery
