import GraphQuery.Fault.Basic
import GraphQuery.Sorting

/-! # Latencies

A tracker keeps the most recent latencies, up to its capacity. A percentile is one of them: the
element whose rank is the given share of their number, rounded up.
-/

namespace GraphQuery

/-- Recent latencies, oldest first. -/
structure LatencyTracker where
  capacity : Nat
  samples : List Number

namespace LatencyTracker

/-- The capacity when nothing else is said. -/
def standardCapacity : Int := 1000

def create (capacity : Int) : Except Fault LatencyTracker :=
  if capacity ≤ 0 then .error (.plain .value "capacity must be positive")
  else .ok ⟨capacity.toNat, []⟩

def newest (count : Nat) (samples : List Number) : List Number :=
  samples.drop (samples.length - count)

/-- Adds a latency; the oldest one goes if there is no room. -/
def record (latency : Number) (tracker : LatencyTracker) : LatencyTracker :=
  { tracker with samples := newest tracker.capacity (tracker.samples ++ [latency]) }

def reset (tracker : LatencyTracker) : LatencyTracker :=
  { tracker with samples := [] }

def size (tracker : LatencyTracker) : Nat :=
  tracker.samples.length

def ranked (tracker : LatencyTracker) : List Number :=
  stableSort (fun a b => !b.less a) tracker.samples

/-- A share of a number of samples, rounded up. -/
def rank (share : Number) (count : Nat) : Except Fault Int :=
  match share.overPowerOfTen? 2, (Number.int count).toFloat? with
  | some x, some n =>
    match FloatForm.ofFloat (x * n) with
    | .nan => .error (.plain .value "cannot convert float NaN to integer")
    | .infinite _ => .error (.plain .overflow "cannot convert float infinity to integer")
    | .finite negative mantissa exponent => .ok (FloatForm.roundUp negative mantissa exponent)
  | _, _ => .error .tooLargeForFloat

/-- The latency at a share of one hundred, zero if there is none. Ranks out of range are those of
the smallest and the largest latency. -/
def percentile (share : Number) (tracker : LatencyTracker) : Except Fault Number :=
  if tracker.samples.isEmpty then .ok (.int 0)
  else
    (rank share tracker.size).map fun rank =>
      tracker.ranked.getD (min (rank - 1).toNat (tracker.size - 1)) (.int 0)

/-- What is reported about latencies: three percentiles and their number. -/
def stats (tracker : LatencyTracker) : Except Fault (List (String × Number)) := do
  let median ← tracker.percentile (.int 50)
  let high ← tracker.percentile (.int 95)
  let highest ← tracker.percentile (.int 99)
  .ok [("p50", median), ("p95", high), ("p99", highest), ("count", .int tracker.size)]

end LatencyTracker

end GraphQuery
