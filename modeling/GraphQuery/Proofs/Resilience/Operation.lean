import GraphQuery.Proofs.Resilience.Circuit
import Mathlib.Data.List.DropRight

/-! # A breaker and what was done with it

A breaker is asked, told of successes and told of failures, in any order: nobody has to ask before
telling, and an open breaker may be told of a success. `Reflects` says which part of all this a
breaker remembers. The failures since the last success decide on its state and, with the time of the
last of them, on its answers. A question may turn an open breaker half open, but no later answer
depends on whether it was asked.
-/

namespace GraphQuery

namespace Circuit

/-- What is done with a breaker, and at what time. -/
inductive Operation where
  | ask (time : Float)
  | succeed (time : Float)
  | fail (time : Float)

namespace Operation

def time : Operation → Float
  | .ask time | .succeed time | .fail time => time

/-- Whether a breaker is told of a success. -/
def isSuccess : Operation → Bool
  | .succeed _ => true
  | _ => false

/-- The time of a failure of which a breaker is told. -/
def failure? : Operation → Option Float
  | .fail time => some time
  | _ => none

def apply (options : BreakerOptions) (breaker : Breaker) : Operation → Breaker
  | .ask time => (breaker.ask options time).2
  | .succeed _ => breaker.succeed
  | .fail time => breaker.fail options time

end Operation

/-- A new breaker after one operation after another. -/
def afterAll (options : BreakerOptions) (operations : List Operation) : Breaker :=
  operations.foldl (Operation.apply options) .fresh

/-- The times of the failures after the last success, or of all failures if there was none. -/
def recentFailures (operations : List Operation) : List Float :=
  (operations.rtakeWhile fun operation => !operation.isSuccess).filterMap Operation.failure?

variable {options : BreakerOptions} {operations : List Operation} {start now time : Float}

@[simp] theorem recentFailures_ask :
    recentFailures (operations ++ [.ask time]) = recentFailures operations := by
  simp [recentFailures, Operation.isSuccess, Operation.failure?]

@[simp] theorem recentFailures_succeed : recentFailures (operations ++ [.succeed time]) = [] := by
  simp [recentFailures, Operation.isSuccess]

@[simp] theorem recentFailures_fail :
    recentFailures (operations ++ [.fail time]) = recentFailures operations ++ [time] := by
  simp [recentFailures, Operation.isSuccess, Operation.failure?]

theorem afterAll_concat (operation : Operation) :
    afterAll options (operations ++ [operation]) = operation.apply options (afterAll options operations) := by
  rw [afterAll, List.foldl_append]
  rfl

/-- The times of operations, of the making of the breaker before them and of a moment after them are
in order: the clock is not turned back. -/
def InOrder (start : Float) (operations : List Operation) (now : Float) : Prop :=
  (start :: (operations.map Operation.time ++ [now])).IsChain (· ≤ ·)

theorem inOrder_concat_iff {operation : Operation} :
    InOrder start (operations ++ [operation]) now ↔
      InOrder start operations operation.time ∧ operation.time ≤ now := by
  have split : start :: ((operations ++ [operation]).map Operation.time ++ [now]) =
      (start :: operations.map Operation.time) ++ [operation.time, now] := by simp
  rw [InOrder, split, List.isChain_append_cons_cons]
  simp [InOrder]

theorem InOrder.le_self (inOrder : InOrder start operations now) : now ≤ now := by
  induction operations using List.reverseRecOn with
  | nil => exact FloatForm.le_self_of_le (List.isChain_pair.mp inOrder)
  | append_singleton => exact FloatForm.le_self_of_le (inOrder_concat_iff.mp inOrder).2

/-- One operation keeps a breaker and the recent failures in agreement. -/
theorem Tracks.apply {breaker : Breaker} (operation : Operation)
    (tracks : Tracks options (recentFailures operations) breaker now) (later : now ≤ operation.time) :
    Tracks options (recentFailures (operations ++ [operation])) (operation.apply options breaker)
      operation.time := by
  cases operation with
  | ask time =>
    rw [recentFailures_ask]
    exact tracks.ask later
  | succeed time =>
    rw [recentFailures_succeed]
    exact Tracks.succeed options breaker time
  | fail time =>
    rw [recentFailures_fail]
    exact tracks.fail later

/-- All operations together keep them in agreement. -/
theorem tracks_afterAll (inOrder : InOrder start operations now) :
    Tracks options (recentFailures operations) (afterAll options operations) now := by
  induction operations using List.reverseRecOn generalizing now with
  | nil => exact tracks_fresh options now
  | append_singleton operations operation ih =>
    obtain ⟨before, later⟩ := inOrder_concat_iff.mp inOrder
    rw [afterAll_concat]
    exact ((ih before).apply operation (FloatForm.self_le_of_le later)).wait later

theorem coe_limit (options : BreakerOptions) : (options.limit : Int) = max 1 options.threshold := by
  unfold BreakerOptions.limit
  omega

/-- A breaker reflects what was done with it up to a moment. -/
structure Reflects (options : BreakerOptions) (operations : List Operation) (now : Float) : Prop where
  /-- It counts the failures since the last success. -/
  failures_eq : (afterAll options operations).failures = (recentFailures operations).length
  /-- It is closed as long as there are fewer of them than the threshold. -/
  closed_iff : (afterAll options operations).state = .closed ↔
    ((afterAll options operations).failures : Int) < max 1 options.threshold
  /-- Otherwise it refuses until the reset time has passed since the last of them. -/
  refuses_iff : ((afterAll options operations).ask options now).1 = true ↔
    max 1 options.threshold ≤ (afterAll options operations).failures ∧
      ∃ last, (recentFailures operations).getLast? = some last ∧
        hasPassed options.resetTimeout last now = false
  /-- For a finite time of the last failure and a number of milliseconds, this is while less than the
  reset time has passed. -/
  refuses_iff_less : options.resetTimeout.place? ≠ none →
    (∀ last, (recentFailures operations).getLast? = some last → FloatForm.IsFinite last) →
    (((afterAll options operations).ask options now).1 = true ↔
      max 1 options.threshold ≤ (afterAll options operations).failures ∧
        ∃ last, (recentFailures operations).getLast? = some last ∧
          (Number.float ((now - last) * 1000)).less options.resetTimeout = true)

/-- Whatever is done with a breaker while the clock is not turned back, it reflects it. -/
theorem reflects_afterAll (inOrder : InOrder start operations now) : Reflects options operations now := by
  have tracks : Tracks options (recentFailures operations) (afterAll options operations) now :=
    tracks_afterAll inOrder
  have limit : ∀ failures : Nat, options.limit ≤ failures ↔ max 1 options.threshold ≤ (failures : Int) := by
    intro failures
    rw [← coe_limit, Int.ofNat_le]
  have refuses : ((afterAll options operations).ask options now).1 = true ↔
      max 1 options.threshold ≤ ((afterAll options operations).failures : Int) ∧
        ∃ last, (recentFailures operations).getLast? = some last ∧
          hasPassed options.resetTimeout last now = false := by
    rw [tracks.refuses_iff inOrder.le_self, ← tracks.failures_eq, limit]
  refine ⟨tracks.failures_eq, ?_, refuses, ?_⟩
  · rw [← not_le, ← limit, tracks.failures_eq]
    constructor
    · intro closed
      exact (tracks.closed closed).not_ge
    · intro few
      by_contra notClosed
      exact few (tracks.notClosed notClosed)
  · intro isNumber finite
    have less : ∀ last, (recentFailures operations).getLast? = some last →
        (hasPassed options.resetTimeout last now = false ↔
          (Number.float ((now - last) * 1000)).less options.resetTimeout = true) := fun last isLast =>
      hasPassed_eq_false_iff_less (tracks.last last isLast).2 (finite last isLast) isNumber
    rw [refuses]
    exact and_congr_right fun _ => exists_congr fun last => and_congr_right (less last)

/-- A breaker that opens, is asked after its reset time, and then fails again. -/
def reopening : List Operation :=
  [.fail 0, .succeed 0.25, .fail 0.5, .fail 0.75, .ask 2, .fail 2.5]

theorem reflects_afterAll_reopening :
    InOrder 0 reopening 3 ∧ Reflects ⟨2, .int 1000⟩ reopening 3 ∧
      (afterAll ⟨2, .int 1000⟩ reopening).failures = 3 ∧
      ((afterAll ⟨2, .int 1000⟩ reopening).ask ⟨2, .int 1000⟩ 3).1 = true := by
  have inOrder : InOrder 0 reopening 3 := by
    simp only [InOrder, reopening, List.map_cons, List.map_nil, List.cons_append, List.nil_append,
      Operation.time, List.isChain_cons_cons, List.isChain_singleton, and_true]
    decide +kernel
  exact ⟨inOrder, reflects_afterAll inOrder, by decide +kernel, by decide +kernel⟩

end Circuit

end GraphQuery
