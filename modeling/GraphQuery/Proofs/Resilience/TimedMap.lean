import GraphQuery.Proofs.Resilience.Cache
import Mathlib.Data.List.Chain

/-! # A cache as a map whose results expire

Results are stored, looked up and asked for in any order. A cache answers like a map that remembers
what was stored last under every key and from when on: it may forget a result, but only one that has
expired, and what has expired once is never answered again. Looking a key up drops its own result if
that has expired. Storing drops the results of all keys that have, so that nothing else than live
results is left beside the new one.
-/

namespace GraphQuery.TimedCache

variable {Item : Type}

/-- What is done with a cache, and at what time. -/
inductive Operation (Item : Type) where
  | put (key : String) (item : Item) (time : Float)
  | getD (key : String) (absent : Item) (time : Float)
  | contains (key : Value) (time : Float)

namespace Operation

def time : Operation Item → Float
  | .put _ _ time | .getD _ _ time | .contains _ time => time

def stored? (key : String) : Operation Item → Option (Stored Item)
  | .put other item time => if other = key then some ⟨time, item⟩ else none
  | _ => none

def apply (cache : TimedCache Item) : Operation Item → TimedCache Item
  | .put key item time => cache.put key item time
  | .getD key absent time => (cache.getD key absent time).2
  | .contains key time => (cache.contains key time).2

end Operation

/-- A new cache after one operation after another. -/
def afterAll (ttl : Number) (operations : List (Operation Item)) : TimedCache Item :=
  operations.foldl Operation.apply (.empty ttl)

def lastStored? (key : String) (operations : List (Operation Item)) : Option (Stored Item) :=
  (operations.filterMap (Operation.stored? key)).getLast?

/-- What a map holds under a key at a time, if results expire. -/
def held? (ttl : Number) (operations : List (Operation Item)) (key : String) (now : Float) :
    Option Item :=
  ((lastStored? key operations).filter fun stored => !hasPassed ttl stored.since now).map Stored.item

/-- The times of operations and of a moment after them are in order: the clock is not turned back. -/
def InOrder (operations : List (Operation Item)) (now : Float) : Prop :=
  (operations.map Operation.time ++ [now]).IsChain (· ≤ ·)

variable {operations : List (Operation Item)} {cache : TimedCache Item} {key other : String} {item : Item}
  {stored : Stored Item} {ttl : Number} {now time : Float}

/-! ## What was stored last -/

theorem lastStored?_put_self :
    lastStored? key (operations ++ [.put key item time]) = some ⟨time, item⟩ := by
  simp [lastStored?, Operation.stored?]

theorem lastStored?_put_of_ne (different : other ≠ key) :
    lastStored? other (operations ++ [.put key item time]) = lastStored? other operations := by
  simp [lastStored?, Operation.stored?, different.symm]

theorem lastStored?_getD (absent : Item) :
    lastStored? other (operations ++ [.getD key absent time]) = lastStored? other operations := by
  simp [lastStored?, Operation.stored?]

theorem lastStored?_contains (value : Value) :
    lastStored? other (operations ++ [.contains value time]) = lastStored? other operations := by
  simp [lastStored?, Operation.stored?]

theorem afterAll_concat (operation : Operation Item) :
    afterAll ttl (operations ++ [operation]) = operation.apply (afterAll ttl operations) := by
  rw [afterAll, List.foldl_append]
  rfl

theorem inOrder_concat_iff {operation : Operation Item} :
    InOrder (operations ++ [operation]) now ↔ InOrder operations operation.time ∧ operation.time ≤ now := by
  have split : (operations ++ [operation]).map Operation.time ++ [now] =
      operations.map Operation.time ++ [operation.time, now] := by simp
  rw [InOrder, split, List.isChain_append_cons_cons]
  simp [InOrder]

/-! ## What a cache remembers -/

/-- A cache agrees with what was stored last under every key. -/
structure Remembers (operations : List (Operation Item)) (cache : TimedCache Item) (now : Float) :
    Prop where
  filled : cache.IsFilledBy now
  since_le : ∀ key stored, lastStored? key operations = some stored → stored.since ≤ now
  last : ∀ entry ∈ cache.entries, lastStored? entry.1 operations = some entry.2
  kept : ∀ key stored, lastStored? key operations = some stored →
    hasPassed cache.ttl stored.since now = false → Assoc.get? key cache.entries = some stored

namespace Remembers

theorem empty (ttl : Number) (now : Float) : Remembers [] (.empty ttl : TimedCache Item) now where
  filled := isFilledBy_empty ttl now
  since_le := by simp [lastStored?]
  last := by simp [TimedCache.empty]
  kept := by simp [lastStored?]

/-- Time goes on. -/
theorem wait (remembers : Remembers operations cache now) (later : now ≤ time) :
    Remembers operations cache time where
  filled := remembers.filled.wait later
  since_le key stored isLast := FloatForm.le_trans (remembers.since_le key stored isLast) later
  last := remembers.last
  kept key stored isLast kept := by
    apply remembers.kept key stored isLast
    exact hasPassed_eq_false_of_le (remembers.since_le key stored isLast) later kept

/-- Looking a key up drops its result only if that has expired. -/
theorem get? (remembers : Remembers operations cache now) (key : String) :
    Remembers operations (cache.get? key now).2 now where
  filled := remembers.filled.get? key now
  since_le := remembers.since_le
  last entry member := remembers.last entry (mem_of_mem_get? member)
  kept other stored isLast kept := by
    rw [ttl_get?] at kept
    exact get?_get?_of_kept (remembers.kept other stored isLast kept) kept key

/-- What is stored counts from now on, and nothing that is live is lost. -/
theorem put (remembers : Remembers operations cache now) (isTime : now ≤ now) (key : String) (item : Item) :
    Remembers (operations ++ [.put key item now]) (cache.put key item now) now where
  filled := remembers.filled.put isTime key item
  since_le other stored isLast := by
    by_cases same : other = key
    · rw [same, lastStored?_put_self] at isLast
      obtain rfl := Option.some.inj isLast
      exact isTime
    · rw [lastStored?_put_of_ne same] at isLast
      exact remembers.since_le other stored isLast
  last := by
    rintro ⟨other, result⟩ member
    by_cases same : other = key
    · subst same
      have distinct := (remembers.filled.put isTime other item).distinct
      have written := Assoc.eq_of_get?_of_mem distinct (get?_put_self other item now cache) member
      rw [lastStored?_put_self, written]
    · rw [lastStored?_put_of_ne same]
      rcases eq_or_mem_of_mem_put member with written | before
      · exact absurd (congrArg Prod.fst written) same
      · exact remembers.last _ before
  kept other stored isLast kept := by
    by_cases same : other = key
    · rw [same, lastStored?_put_self] at isLast
      obtain rfl := Option.some.inj isLast
      rw [same]
      exact get?_put_self key item now cache
    · rw [lastStored?_put_of_ne same] at isLast
      rw [ttl_put] at kept
      exact get?_put_of_kept (remembers.kept other stored isLast kept) kept same item

theorem of_lastStored? {others : List (Operation Item)} (remembers : Remembers operations cache now)
    (same : ∀ key, lastStored? key others = lastStored? key operations) : Remembers others cache now where
  filled := remembers.filled
  since_le key stored isLast := remembers.since_le key stored (same key ▸ isLast)
  last entry member := (same entry.1).trans (remembers.last entry member)
  kept key stored isLast := remembers.kept key stored (same key ▸ isLast)

/-- One operation keeps a cache and what was stored in agreement. -/
theorem apply (operation : Operation Item) (remembers : Remembers operations cache operation.time)
    (isTime : operation.time ≤ operation.time) :
    Remembers (operations ++ [operation]) (operation.apply cache) operation.time := by
  cases operation with
  | put key item time => exact remembers.put isTime key item
  | getD key absent time => exact (remembers.get? key).of_lastStored? fun _ => lastStored?_getD absent
  | contains value time =>
    have asked : Remembers operations (cache.contains value time).2 time := by
      cases value with
      | text key => exact remembers.get? key
      | _ => exact remembers
    exact asked.of_lastStored? fun _ => lastStored?_contains value

/-- What a cache answers is what is held. -/
theorem get?_eq (remembers : Remembers operations cache now) (key : String) :
    (cache.get? key now).1 = held? cache.ttl operations key now := by
  cases answered : (cache.get? key now).1 with
  | some item =>
    obtain ⟨stored, found, kept, rfl⟩ := exists_kept_of_get? answered
    have isLast := remembers.last (key, stored) (Assoc.mem_of_get? found)
    simp only at isLast
    simp [held?, isLast, kept]
  | none =>
    cases isLast : lastStored? key operations with
    | none => simp [held?, isLast]
    | some stored =>
      have expired : hasPassed cache.ttl stored.since now = true := by
        by_contra kept
        have found := remembers.kept key stored isLast (eq_false_of_ne_true kept)
        rw [get?_of_kept found (eq_false_of_ne_true kept)] at answered
        cases answered
      simp [held?, isLast, expired]

/-- The keys that have live results are those under which something is held. -/
theorem mem_prune_iff (remembers : Remembers operations cache now) :
    key ∈ (cache.prune now).entries.map Prod.fst ↔ (held? cache.ttl operations key now).isSome = true := by
  constructor
  · intro member
    obtain ⟨⟨_, stored⟩, among, rfl⟩ := List.mem_map.mp member
    obtain ⟨before, kept⟩ := List.mem_filter.mp among
    have isLast := remembers.last _ before
    simp only [isExpired, Bool.not_eq_true'] at isLast kept
    simp [held?, isLast, kept]
  · intro held
    rw [held?, Option.isSome_map, Option.isSome_filter] at held
    cases isLast : lastStored? key operations with
    | none => simp [isLast] at held
    | some stored =>
      have kept : hasPassed cache.ttl stored.since now = false := by simpa [isLast] using held
      have found := Assoc.mem_of_get? (remembers.kept key stored isLast kept)
      exact List.mem_map.mpr ⟨(key, stored), List.mem_filter.mpr ⟨found, by simp [isExpired, kept]⟩, rfl⟩

end Remembers

theorem ttl_afterAll (ttl : Number) (operations : List (Operation Item)) :
    (afterAll ttl operations).ttl = ttl := by
  induction operations using List.reverseRecOn with
  | nil => rfl
  | append_singleton operations operation ih =>
    rw [afterAll_concat]
    cases operation with
    | put => exact ih
    | getD key => exact (ttl_get? key _ _).trans ih
    | contains value =>
      cases value with
      | text key => exact (ttl_get? key _ _).trans ih
      | _ => exact ih

/-- All operations together keep a cache and what was stored in agreement. -/
theorem remembers_afterAll (inOrder : InOrder operations now) :
    Remembers operations (afterAll ttl operations) now := by
  induction operations using List.reverseRecOn generalizing now with
  | nil => exact .empty ttl now
  | append_singleton operations operation ih =>
    obtain ⟨before, later⟩ := inOrder_concat_iff.mp inOrder
    rw [afterAll_concat]
    exact ((ih before).apply operation (FloatForm.self_le_of_le later)).wait later

/-- After storing a result, a cache has the key of the result and those keys that have live results. -/
theorem mem_keys_put_iff :
    other ∈ (cache.put key item now).entries.map Prod.fst ↔
      other = key ∨ other ∈ (cache.prune now).entries.map Prod.fst := by
  by_cases present : key ∈ (cache.prune now).entries.map Prod.fst
  · rw [put, Assoc.map_fst_put_of_mem present]
    constructor
    · exact .inr
    · rintro (rfl | among)
      · exact present
      · exact among
  · rw [put, Assoc.put_of_notMem present, List.map_append, List.mem_append, List.map_singleton,
      List.mem_singleton, or_comm]

/-- A cache answers at a moment like a map whose results expire, and has no other keys than that map
once a result is stored. -/
structure RefinesMap (ttl : Number) (operations : List (Operation Item)) (now : Float) : Prop where
  /-- Looking a key up gives what is held under it, or the item that was named for its absence. -/
  getD_eq : ∀ key absent,
    ((afterAll ttl operations).getD key absent now).1 = (held? ttl operations key now).getD absent
  /-- A text is a key exactly if something is held under it. -/
  contains_eq : ∀ key,
    ((afterAll ttl operations).contains (.text key) now).1 = (held? ttl operations key now).isSome
  /-- What is no text is no key. -/
  contains_of_notText : ∀ value : Value, value.text? = none →
    ((afterAll ttl operations).contains value now).1 = false
  /-- Under a key where nothing was stored, nothing is held. -/
  held_of_none : ∀ key, lastStored? key operations = none → held? ttl operations key now = none
  /-- Otherwise the last result is held as long as it has not expired: for a finite time of storing and a
  number of milliseconds, this is while less than its lifetime has passed. -/
  held_of_some : ttl.place? ≠ none → ∀ key stored, lastStored? key operations = some stored →
    FloatForm.IsFinite stored.since → held? ttl operations key now =
      if (Number.float ((now - stored.since) * 1000)).less ttl then some stored.item else none
  /-- Once a result is stored, its key and the keys under which something is held are stored, each of them
  once, and nothing else is counted. -/
  keys_put : ∀ key item, let after := (afterAll ttl operations).put key item now
    (∀ other, other ∈ after.entries.map Prod.fst ↔
      other = key ∨ (held? ttl operations other now).isSome = true) ∧
    (after.entries.map Prod.fst).Nodup ∧ after.size = (after.entries.map Prod.fst).length

/-- Whatever is done with a cache while the clock is not turned back, it refines a map whose results
expire. -/
theorem refinesMap_afterAll (inOrder : InOrder operations now) : RefinesMap ttl operations now := by
  have remembers : Remembers operations (afterAll ttl operations) now := remembers_afterAll inOrder
  have answer (key : String) :
      ((afterAll ttl operations).get? key now).1 = held? ttl operations key now := by
    rw [remembers.get?_eq, ttl_afterAll]
  refine ⟨?_, ?_, ?_, ?_, ?_, ?_⟩
  · intro key absent
    rw [← answer]
    rfl
  · intro key
    rw [← answer]
    rfl
  · intro value notText
    cases value with
    | text key => cases notText
    | _ => rfl
  · intro key none
    rw [held?, none]
    rfl
  · intro isNumber key stored isLast finite
    have less := hasPassed_eq_false_iff_less (remembers.since_le key stored isLast) finite isNumber
    rw [held?, isLast]
    by_cases kept : hasPassed ttl stored.since now = false
    · rw [if_pos (less.mp kept), Option.filter_some, kept]
      rfl
    · rw [if_neg fun isLess => kept (less.mpr isLess), Option.filter_some, eq_true_of_ne_false kept]
      rfl
  · intro key item after
    refine ⟨fun other => ?_, ?_, ?_⟩
    · rw [mem_keys_put_iff, remembers.mem_prune_iff, ttl_afterAll]
    · exact Assoc.nodup_put (remembers.filled.distinct.sublist (List.filter_sublist.map _)) key _
    · exact (List.length_map ..).symm

/-- Results of three keys, one of which is stored anew in time and one of which expires. -/
def renewal : List (Operation Nat) :=
  [.put "a" 1 0, .put "b" 2 0.25, .put "a" 3 0.5, .getD "b" 0 1.25, .contains (.text "a") 1.25]

theorem refinesMap_afterAll_renewal :
    InOrder renewal 1.375 ∧ RefinesMap (.int 1000) renewal 1.375 ∧
      ["a", "b", "c"].map (fun key => held? (.int 1000) renewal key 1.375) = [some 3, none, none] ∧
      ((afterAll (.int 1000) renewal).put "c" 4 1.375).size = 2 := by
  have inOrder : InOrder renewal 1.375 := by
    simp only [InOrder, renewal, List.map_cons, List.map_nil, List.cons_append, List.nil_append,
      Operation.time, List.isChain_cons_cons, List.isChain_singleton, and_true]
    decide +kernel
  exact ⟨inOrder, refinesMap_afterAll inOrder, by decide +kernel, by decide +kernel⟩

end GraphQuery.TimedCache
