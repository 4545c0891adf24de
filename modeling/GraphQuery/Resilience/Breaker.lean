import GraphQuery.Assoc
import GraphQuery.Number

/-! # Circuit breakers

A breaker counts the failures since the last success. When they reach its threshold it opens, and
while it is open no call is admitted. Once its reset time has passed since the last failure, the
next question turns it half open; then a success closes it and a failure opens it again. A breaker
holds no clock, every operation says at what time it happens, in seconds.
-/

namespace GraphQuery

/-- Whether calls are admitted. -/
inductive BreakerState where
  | closed
  | opened
  | halfOpen
  deriving DecidableEq, Repr

def BreakerState.name : BreakerState → String
  | .closed => "closed"
  | .opened => "open"
  | .halfOpen => "half-open"

/-- What all breakers of a registry share: how many failures open them, and after how many
milliseconds they may be tried again. -/
structure BreakerOptions where
  threshold : Int
  resetTimeout : Number

/-- Five failures, and one minute. -/
def BreakerOptions.standard : BreakerOptions := ⟨5, .int 60000⟩

/-- The number of failures that open a breaker, at least one. -/
def BreakerOptions.limit (options : BreakerOptions) : Nat :=
  max 1 options.threshold.toNat

/-- Whether some milliseconds have passed between two times. -/
def hasPassed (milliseconds : Number) (since now : Float) : Bool :=
  (Number.float ((now - since) * 1000)).atLeast milliseconds

/-- A circuit breaker. -/
structure Breaker where
  state : BreakerState
  failures : Nat
  lastFailure : Float

namespace Breaker

def fresh : Breaker := ⟨.closed, 0, 0.0⟩

/-- Asks for admission: whether the call is refused, and the breaker after the question. -/
def ask (options : BreakerOptions) (now : Float) (breaker : Breaker) : Bool × Breaker :=
  match breaker.state with
  | .opened =>
    if hasPassed options.resetTimeout breaker.lastFailure now then
      (false, { breaker with state := .halfOpen })
    else (true, breaker)
  | _ => (false, breaker)

def succeed (breaker : Breaker) : Breaker :=
  { breaker with state := .closed, failures := 0 }

def fail (options : BreakerOptions) (now : Float) (breaker : Breaker) : Breaker :=
  let failures := breaker.failures + 1
  let opens := breaker.state = .halfOpen || options.limit ≤ failures
  ⟨if opens then .opened else breaker.state, failures, now⟩

end Breaker

/-- Breakers under their names, in the order in which they were first used. -/
structure Registry where
  options : BreakerOptions
  breakers : List (String × Breaker)

namespace Registry

def empty (options : BreakerOptions) : Registry := ⟨options, []⟩

/-- The breaker under a name, a new one if there is none. -/
def get (name : String) (registry : Registry) : Breaker :=
  (Assoc.get? name registry.breakers).getD .fresh

def put (name : String) (breaker : Breaker) (registry : Registry) : Registry :=
  { registry with breakers := Assoc.put name breaker registry.breakers }

def contains (name : String) (registry : Registry) : Bool :=
  Assoc.contains name registry.breakers

@[simp] theorem get_put_self (name : String) (breaker : Breaker) (registry : Registry) :
    (registry.put name breaker).get name = breaker := by
  simp [get, put]

end Registry

end GraphQuery
