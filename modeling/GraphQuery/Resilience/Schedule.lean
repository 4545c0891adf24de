import GraphQuery.Fault.Basic

/-! # Retry schedules

A schedule lists the delays before each retry, in milliseconds. Delays stay the same, double, or
grow like the Fibonacci numbers. Doubling keeps integers exact; the sums of the third kind start
from a float zero, so all but the first delay are floats.
-/

namespace GraphQuery

/-- How delays grow. -/
inductive Growth where
  | exponential
  | fixed
  | fibonacci
  deriving DecidableEq, Repr

/-- A retry schedule. A negative number of retries allows none. -/
structure RetrySchedule where
  growth : Growth
  baseDelay : Number
  maxRetries : Int

namespace RetrySchedule

/-- The schedule of a kind of growth when nothing else is said. -/
def standard : Growth → RetrySchedule
  | .exponential => ⟨.exponential, .int 100, 3⟩
  | .fixed => ⟨.fixed, .int 1000, 3⟩
  | .fibonacci => ⟨.fibonacci, .int 100, 5⟩

/-- Delays that double, from the given power of two on. -/
def doubling (base : Number) (power : Nat) : (count : Nat) → Option (List Number)
  | 0 => some []
  | count + 1 =>
    (base.mul? (.int (Nat.pow 2 power))).bind fun delay =>
      (doubling base (power + 1) count).map (delay :: ·)

/-- Delays each of which is the sum of the two before it. -/
def summing (previous current : Number) : (count : Nat) → Option (List Number)
  | 0 => some []
  | 1 => some [current]
  | count + 2 =>
    (previous.add? current).bind fun next =>
      (summing current next (count + 1)).map (current :: ·)

/-- The delays before each retry, if they are within the range of numbers. -/
def delays? (schedule : RetrySchedule) : Option (List Number) :=
  let count := schedule.maxRetries.toNat
  match schedule.growth with
  | .fixed => some (List.replicate count schedule.baseDelay)
  | .exponential => doubling schedule.baseDelay 0 count
  | .fibonacci => summing (.float 0.0) schedule.baseDelay count

def delays (schedule : RetrySchedule) : Except Fault (List Number) :=
  match schedule.delays? with
  | some delays => .ok delays
  | none => .error .tooLargeForFloat

theorem length_doubling {base : Number} {power count : Nat} {delays : List Number}
    (found : doubling base power count = some delays) : delays.length = count := by
  induction count generalizing power delays with
  | zero => simp_all [doubling]
  | succ count ih =>
    simp only [doubling, Option.bind_eq_some_iff, Option.map_eq_some_iff] at found
    obtain ⟨_, _, rest, more, rfl⟩ := found
    simp [ih more]

theorem length_summing {previous current : Number} {count : Nat} {delays : List Number}
    (found : summing previous current count = some delays) : delays.length = count := by
  induction count using Nat.strongRecOn generalizing previous current delays with
  | _ count ih =>
    match count with
    | 0 => simp_all [summing]
    | 1 =>
      simp only [summing, Option.some.injEq] at found
      simp [← found]
    | count + 2 =>
      simp only [summing, Option.bind_eq_some_iff, Option.map_eq_some_iff] at found
      obtain ⟨_, _, rest, more, rfl⟩ := found
      simp [ih (count + 1) (by omega) more]

/-- There is one delay for every allowed retry. -/
theorem length_delays? {schedule : RetrySchedule} {delays : List Number}
    (found : schedule.delays? = some delays) : delays.length = schedule.maxRetries.toNat := by
  unfold delays? at found
  split at found
  · simp_all [← Option.some.inj found]
  · exact length_doubling found
  · exact length_summing found

end RetrySchedule

end GraphQuery
