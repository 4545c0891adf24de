import GraphQuery.Metrics.Latency
import GraphQuery.Proofs.Decimal.Order
import GraphQuery.Proofs.Sorting

/-! # The window of a latency tracker

Whatever is recorded and reset in whatever order, a tracker holds the latest of what was recorded
since the last reset, as many as its capacity allows. Sorted by their places, the element behind
`rank - 1` others is the one of that rank: fewer than `rank` elements are less than it, and at least
`rank` are not greater.
-/

namespace GraphQuery.LatencyTracker

/-- What is done with a tracker. -/
inductive Operation where
  | record (latency : Number)
  | reset

namespace Operation

def apply (tracker : LatencyTracker) : Operation → LatencyTracker
  | .record latency => tracker.record latency
  | .reset => tracker.reset

/-- What was recorded since the last reset, after an operation. -/
def remember (latencies : List Number) : Operation → List Number
  | .record latency => latencies ++ [latency]
  | .reset => []

end Operation

def afterAll (tracker : LatencyTracker) (operations : List Operation) : LatencyTracker :=
  operations.foldl Operation.apply tracker

/-- What was recorded since the last reset, oldest first. -/
def recorded (operations : List Operation) : List Number :=
  operations.foldl Operation.remember []

/-- Operations record numbers, and nothing that is not a number. -/
def AreNumbers (operations : List Operation) : Prop :=
  ∀ latency, .record latency ∈ operations → latency.place?.isSome

/-! ## What a tracker holds -/

private theorem newest_newest_append (count : ℕ) (latencies : List Number) (latency : Number) :
    newest count (newest count latencies ++ [latency]) = newest count (latencies ++ [latency]) := by
  simp only [newest, List.length_append, List.length_drop, List.length_singleton, List.drop_append,
    List.drop_drop]
  congr 2 <;> omega

/-- What a tracker holds in view of what was recorded since the last reset. -/
structure Holds (capacity : ℕ) (latencies : List Number) (tracker : LatencyTracker) : Prop where
  capacity_eq : tracker.capacity = capacity
  samples_eq : tracker.samples = newest capacity latencies

variable {capacity : ℕ} {latencies samples : List Number} {tracker : LatencyTracker} {latency : Number}

theorem Holds.apply (holds : Holds capacity latencies tracker) (operation : Operation) :
    Holds capacity (operation.remember latencies) (operation.apply tracker) := by
  obtain ⟨rfl, same⟩ := holds
  cases operation with
  | record latency =>
    constructor
    · rfl
    · rw [Operation.apply, record, same]
      exact newest_newest_append _ _ _
  | reset => exact ⟨rfl, List.drop_nil.symm⟩

private theorem Holds.foldl (operations : List Operation) (holds : Holds capacity latencies tracker) :
    Holds capacity (operations.foldl Operation.remember latencies)
      (operations.foldl Operation.apply tracker) := by
  induction operations generalizing latencies tracker with
  | nil => exact holds
  | cons operation rest ih => exact ih (holds.apply operation)

/-- A new tracker holds the latest of what was recorded since the last reset. -/
theorem samples_afterAll {capacity : ℤ} (created : create capacity = .ok tracker)
    (operations : List Operation) :
    (afterAll tracker operations).samples = newest capacity.toNat (recorded operations) := by
  unfold create at created
  split at created
  · cases created
  · obtain rfl := Except.ok.inj created
    have new : Holds capacity.toNat [] ⟨capacity.toNat, []⟩ := ⟨rfl, List.drop_nil.symm⟩
    exact (new.foldl operations).samples_eq

private theorem mem_foldl_remember {operations : List Operation}
    (member : latency ∈ operations.foldl Operation.remember latencies) :
    latency ∈ latencies ∨ .record latency ∈ operations := by
  induction operations generalizing latencies with
  | nil => exact .inl member
  | cons operation rest ih =>
    rcases ih member with before | behind
    · cases operation with
      | record other =>
        rcases List.mem_append.mp before with old | new
        · exact .inl old
        · obtain rfl := List.mem_singleton.mp new
          exact .inr (List.mem_cons_self ..)
      | reset => cases before
    · exact .inr (List.mem_cons_of_mem _ behind)

/-- Only what was recorded is in the window. -/
theorem AreNumbers.isSome_place? {operations : List Operation} (numbers : AreNumbers operations)
    (member : latency ∈ newest capacity (recorded operations)) : latency.place?.isSome := by
  rcases mem_foldl_remember (List.mem_of_mem_drop member) with none | given
  · cases none
  · exact numbers latency given

/-- What is recorded without a reset is remembered as it is. -/
theorem recorded_map_record (latencies : List Number) :
    recorded (latencies.map .record) = latencies := by
  have remembered (before : List Number) :
      (latencies.map .record).foldl Operation.remember before = before ++ latencies := by
    induction latencies generalizing before with
    | nil => simp
    | cons latency rest ih => simp [ih, Operation.remember]
  exact remembered []

/-! ## Ranks -/

/-- Whether a latency is the one of a rank among samples, where the smallest one has rank one: fewer
samples are less, and at least as many are not greater. -/
structure HasRank (latency : Number) (rank : ℕ) (samples : List Number) : Prop where
  mem : latency ∈ samples
  less : samples.countP (fun other => other.less latency) < rank
  notGreater : rank ≤ samples.countP fun other => !latency.less other

section Sorted

variable {Item Key : Type} [LinearOrder Key] {key : Item → Key} {items : List Item}

/-- In a sorted list, the elements that are less than one of them stand before it, and those up to it
are not greater. -/
theorem countP_sorted (sorted : items.Pairwise fun a b => key a ≤ key b) {place : ℕ}
    (within : place < items.length) :
    items.countP (fun other => key other < key items[place]) ≤ place ∧
      place + 1 ≤ items.countP fun other => key other ≤ key items[place] := by
  have ordered : ∀ first second (bound : second < items.length) (le : first ≤ second),
      key (items[first]) ≤ key (items[second]) := by
    intro first second bound le
    rcases le.lt_or_eq with less | rfl
    · exact List.pairwise_iff_getElem.mp sorted first second (by omega) bound less
    · exact le_rfl
  constructor
  · have behind : (items.drop place).countP (fun other => key other < key items[place]) = 0 := by
      rw [List.countP_eq_zero]
      intro other member
      obtain ⟨offset, bound, rfl⟩ := List.mem_drop_iff_getElem.mp member
      simpa using ordered place (place + offset) (by omega) (by omega)
    calc items.countP (fun other => key other < key items[place])
        = (items.take place).countP (fun other => key other < key items[place]) + 0 := by
          rw [← behind, ← List.countP_append, List.take_append_drop]
      _ ≤ place := List.countP_le_length.trans (List.length_take_le ..)
  · have all : (items.take (place + 1)).countP (fun other => key other ≤ key items[place]) = place + 1 := by
      rw [List.countP_eq_length.mpr, List.length_take, min_eq_left within]
      intro other member
      obtain ⟨offset, bound, rfl⟩ := List.mem_take_iff_getElem.mp member
      simpa using ordered offset place within (by omega)
    exact all.ge.trans ((List.take_sublist _ _).countP_le)

/-- Where all keys are different, at most one more element is not greater than one of them. -/
theorem countP_le_succ (distinct : (items.map key).Nodup) (bound : Key) :
    items.countP (fun other => key other ≤ bound) ≤
      items.countP (fun other => key other < bound) + 1 := by
  have single : (items.map key).count bound ≤ 1 := List.nodup_iff_count_le_one.mp distinct bound
  have parts : items.countP (fun other => key other ≤ bound) =
      items.countP (fun other => key other < bound) + (items.map key).count bound := by
    clear distinct single
    induction items with
    | nil => rfl
    | cons item rest ih =>
      rw [List.countP_cons, List.countP_cons, List.map_cons, List.count_cons, ih]
      rcases lt_trichotomy (key item) bound with less | same | more
      · simp [less, less.le, less.ne]
        omega
      · simp [same]
        omega
      · simp [more.not_gt, more.not_ge, more.ne']
  omega

end Sorted

/-- The place of a latency that is a number. -/
def position (latency : Number) : Place :=
  latency.place?.getD ⊥

section Numbers

variable {a b : Number}

private theorem less_eq (first : a.place?.isSome) (second : b.place?.isSome) :
    a.less b = decide (position a < position b) := by
  obtain ⟨p, atA⟩ := Option.isSome_iff_exists.mp first
  obtain ⟨q, atB⟩ := Option.isSome_iff_exists.mp second
  rw [Bool.eq_iff_iff, Number.less_iff, decide_eq_true_iff, position, position, atA, atB]
  simp

private theorem not_less_eq (first : a.place?.isSome) (second : b.place?.isSome) :
    (!b.less a) = decide (position a ≤ position b) := by
  rw [less_eq second first, ← decide_not, decide_eq_decide, not_lt]

variable (numbers : ∀ latency ∈ samples, latency.place?.isSome)

include numbers

/-- Ranks are a matter of places. -/
theorem hasRank_iff {rank : ℕ} : HasRank latency rank samples ↔
    latency ∈ samples ∧ samples.countP (fun other => position other < position latency) < rank ∧
      rank ≤ samples.countP fun other => position other ≤ position latency := by
  have counts (member : latency ∈ samples) :
      samples.countP (fun other => other.less latency) =
          samples.countP (fun other => position other < position latency) ∧
        samples.countP (fun other => !latency.less other) =
          samples.countP fun other => position other ≤ position latency := by
    constructor
    · apply List.countP_congr
      intro other found
      rw [less_eq (numbers other found) (numbers latency member)]
    · apply List.countP_congr
      intro other found
      rw [not_less_eq (numbers other found) (numbers latency member)]
  constructor
  · rintro ⟨member, less, notGreater⟩
    rw [(counts member).1] at less
    rw [(counts member).2] at notGreater
    exact ⟨member, less, notGreater⟩
  · rintro ⟨member, less, notGreater⟩
    rw [← (counts member).1] at less
    rw [← (counts member).2] at notGreater
    exact ⟨member, less, notGreater⟩

/-- Different samples have one rank each. -/
theorem HasRank.unique (distinct : (samples.map position).Nodup) {rank other : ℕ}
    (first : HasRank latency rank samples) (second : HasRank latency other samples) : rank = other := by
  have bound := countP_le_succ distinct (position latency)
  have above := ((hasRank_iff numbers).mp first).2
  have above' := ((hasRank_iff numbers).mp second).2
  omega

end Numbers

/-- The latencies of a tracker, smallest first, stand at their ranks. -/
theorem hasRank_ranked (numbers : ∀ latency ∈ tracker.samples, latency.place?.isSome) {place : ℕ}
    (within : place < tracker.size) :
    HasRank (tracker.ranked.getD place (.int 0)) (place + 1) tracker.samples := by
  have sorting : tracker.ranked = sortByKey position tracker.samples := by
    apply stableSort_congr
    intro a memberA b memberB
    exact not_less_eq (numbers a memberA) (numbers b memberB)
  have perm := sortByKey_perm position tracker.samples
  have bound : place < (sortByKey position tracker.samples).length := by
    rw [perm.length_eq]
    exact within
  obtain ⟨less, notGreater⟩ := countP_sorted (pairwise_sortByKey position tracker.samples) bound
  rw [perm.countP_eq] at less notGreater
  rw [sorting, List.getD_eq_getElem _ _ bound]
  apply (hasRank_iff numbers).mpr
  exact ⟨perm.mem_iff.mp (List.getElem_mem bound), Nat.lt_succ_of_le less, notGreater⟩

end GraphQuery.LatencyTracker
