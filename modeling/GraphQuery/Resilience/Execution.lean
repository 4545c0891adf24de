import GraphQuery.Log
import GraphQuery.Resilience.Schedule
import GraphQuery.Resilience.TimedCache

/-! # Execution under policies

A call is answered from the cache if its key has a live result. Otherwise it is attempted until it
succeeds, until it fails in a way that is not retried, or until the retry schedule is used up. The
circuit breaker is asked before every attempt, and a refusal is never retried. An attempt that
takes longer than it may counts as a failure, and so does one that would have to be waited for longer
than anything can wait.

There are two clocks: that of what is shared, which callers choose, and the standard clock of the
system. The breaker of a call that shares none runs on the standard clock.
-/

namespace GraphQuery

/-- How a single attempt ends. -/
inductive Attempt (Item : Type) where
  | answered (item : Item)
  | failed (fault : Fault)
  /-- The attempt does not end before its time limit. -/
  | late

/-- Whether an attempt does not end before its time limit. -/
def Attempt.isLate {Item : Type} : Attempt Item → Bool
  | .late => true
  | _ => false

/-- The policies of a call. Empty names of a breaker or a key stand for none. -/
structure Policy where
  timeout : Option Number
  retry : Option RetrySchedule
  breaker : String
  key : String
  retryOn : List FaultClass

/-- No policy at all. Every fault would be retried if there were retries. -/
def Policy.none : Policy := ⟨Option.none, Option.none, "", "", [.anything]⟩

/-- What is called and what time does meanwhile. -/
structure Backend (Item : Type) where
  /-- The end of the attempt with a number, counted from zero, and the time after it. -/
  call : Nat → Float → Attempt Item × Float
  /-- The time after a sleep of some seconds. -/
  sleep : Float → Float → Float
  /-- What the standard clock shows when an attempt begins. -/
  began : Nat → Float
  /-- What the standard clock shows when an attempt has ended. -/
  ended : Nat → Float
  /-- Whether an attempt is still running when its result is asked for. -/
  isAwaited : Nat → Bool

/-- The times that a breaker sees: when it is asked before an attempt, and when it is told behind
the attempt how it has ended. -/
structure Watch where
  before : Nat → Float → Float
  behind : Nat → Float → Float

/-- A shared breaker sees the time of what is shared. -/
def Watch.shared : Watch := ⟨fun _ clock => clock, fun _ clock => clock⟩

/-- The breaker of a single call sees the standard clock. -/
def Backend.watch {Item : Type} (backend : Backend Item) : Watch :=
  ⟨fun number _ => backend.began number, fun number _ => backend.ended number⟩

/-- What happens during a call, with the time at which it happens where the breaker takes notice. -/
inductive PolicyEvent where
  | answeredFromCache (key : String)
  /-- The breaker refuses an attempt. -/
  | refused (time : Float)
  | attempted (time : Float)
  | succeeded (time : Float)
  | failed (time : Float) (fault : Fault)
  | retrying (attempt : Nat) (fault : Fault) (delay : Number)
  | slept (seconds : Float)

/-- What calls share: breakers, if they are shared, cached results, if they are kept, and time. -/
structure Guard (Item : Type) where
  registry : Option Registry
  cache : Option (TimedCache Item)
  clock : Float

/-- The end of a row of attempts. -/
structure Progress (Item : Type) where
  result : Except Fault Item
  breaker : Option Breaker
  clock : Float
  events : List PolicyEvent

namespace Policy

variable {Item : Type}

def channel : String := "cyphergraph.policies"

/-- The longest time that can be waited for, in seconds. -/
def longestWait : Float := 9223372036.854775

/-- Why the result of an attempt cannot be had under the time limit, whatever it is: the limit is no
number of seconds, or the result would have to be waited for and the limit is too long for that. -/
def waitFault? (policy : Policy) (awaited : Bool) : Option Fault :=
  match policy.timeout with
  | Option.none => Option.none
  | some limit =>
    match limit.overPowerOfTen? 3 with
    | Option.none => some .tooLargeForFloat
    | some seconds => if awaited && longestWait < seconds then some .tooLongToWait else Option.none

/-- The result of an attempt. Under a time limit, an attempt that reports a time-out itself is
treated as one that is late. -/
def resultOf (policy : Policy) (text : String) (awaited : Bool) (attempt : Attempt Item) :
    Except Fault Item :=
  match policy.waitFault? (awaited || attempt.isLate) with
  | some fault => .error fault
  | Option.none =>
    match attempt, policy.timeout with
    | .answered item, _ => .ok item
    | .failed fault, Option.none => .error fault
    | .failed fault, some limit =>
      if fault.isA .timeout then .error (.timedOut limit (.text text)) else .error fault
    | .late, limit => .error (.timedOut (limit.getD (.int 0)) (.text text))

/-- Whether a fault is retried: one of the given classes, but never a refusal of a breaker. -/
def isRetried (policy : Policy) (fault : Fault) : Bool :=
  !fault.isA (.domain .circuitOpen) && policy.retryOn.any fault.isA

/-- Asks a breaker, if there is one. -/
def admission (options : BreakerOptions) (now : Float) : Option Breaker → Bool × Option Breaker
  | Option.none => (false, Option.none)
  | some breaker =>
    let (refused, after) := breaker.ask options now
    (refused, some after)

/-- Attempts a call until it ends. `watch` gives the times that the breaker sees, `number` counts the
attempts that were made, and every delay that is left allows one more. -/
def attempts (policy : Policy) (options : BreakerOptions) (watch : Watch)
    (backend : Backend Item) (text : String) :
    (delays : List Number) → (number : Nat) → Option Breaker → Float → Progress Item
  | delays, number, breaker, clock =>
    let (refused, asked) := admission options (watch.before number clock) breaker
    if refused then ⟨.error (.circuitOpen policy.breaker), asked, clock, [.refused clock]⟩
    else
      let (attempt, after) := backend.call number clock
      match policy.resultOf text (backend.isAwaited number) attempt with
      | .ok item =>
        ⟨.ok item, asked.map Breaker.succeed, after, [.attempted clock, .succeeded after]⟩
      | .error fault =>
        if policy.isRetried fault then
          let failed := asked.map (Breaker.fail options (watch.behind number after))
          let ended : List PolicyEvent := [.attempted clock, .failed after fault]
          match delays with
          | [] => ⟨.error fault, failed, after, ended⟩
          | delay :: rest =>
            match delay.overPowerOfTen? 3 with
            | Option.none => ⟨.error .tooLargeForFloat, failed, after, ended⟩
            | some seconds =>
              let progress := attempts policy options watch backend text rest (number + 1) failed
                (backend.sleep seconds after)
              { progress with
                events := ended ++ .retrying (number + 1) fault delay :: .slept seconds ::
                  progress.events }
        else ⟨.error fault, asked, after, [.attempted clock, .failed after fault]⟩

def delays (policy : Policy) : Except Fault (List Number) :=
  match policy.retry with
  | Option.none => .ok []
  | some schedule => schedule.delays

/-- Looks the key of a call up. -/
def cached (policy : Policy) (guard : Guard Item) : Option Item × Guard Item :=
  match guard.cache with
  | Option.none => (Option.none, guard)
  | some cache =>
    if policy.key = "" then (Option.none, guard)
    else
      let (found, after) := cache.get? policy.key guard.clock
      (found, { guard with cache := some after })

/-- Keeps the result of a call under its key. -/
def remember (policy : Policy) (item : Item) (guard : Guard Item) : Guard Item :=
  if policy.key = "" then guard
  else { guard with cache := guard.cache.map (·.put policy.key item guard.clock) }

/-- The registry of a call. A call that shares none gets one of its own. -/
def registryOf (guard : Guard Item) : Registry :=
  guard.registry.getD (.empty .standard)

/-- Keeps the breaker of a call, if breakers are shared. -/
def keepBreaker (policy : Policy) (breaker : Option Breaker) (guard : Guard Item) : Guard Item :=
  match breaker with
  | Option.none => guard
  | some breaker => { guard with registry := guard.registry.map (·.put policy.breaker breaker) }

/-- Executes a call under a policy: its result, what is shared afterwards, and what happened. -/
def execute (policy : Policy) (backend : Backend Item) (text : String) (guard : Guard Item) :
    Except Fault Item × Guard Item × List PolicyEvent :=
  match policy.cached guard with
  | (some item, after) => (.ok item, after, [.answeredFromCache policy.key])
  | (Option.none, guard) =>
    let registry := registryOf guard
    let breaker := if policy.breaker = "" then Option.none else some (registry.get policy.breaker)
    match policy.delays with
    | .error fault => (.error fault, policy.keepBreaker breaker guard, [])
    | .ok delays =>
      let watch := if guard.registry.isSome then Watch.shared else backend.watch
      let progress :=
        policy.attempts registry.options watch backend text delays 0 breaker guard.clock
      let after := policy.keepBreaker progress.breaker { guard with clock := progress.clock }
      match progress.result with
      | .ok item => (.ok item, policy.remember item after, progress.events)
      | .error fault => (.error fault, after, progress.events)

end Policy

namespace PolicyEvent

def logLine? : PolicyEvent → Option LogLine
  | .answeredFromCache key =>
    some ⟨.debug, Policy.channel, s!"Idempotency hit key={key}"⟩
  | .retrying attempt fault delay =>
    let shown := (delay.toFloat?.map (Decimal.fixed 0)).getD ""
    some ⟨.warning, Policy.channel,
      s!"Query attempt {attempt} failed ({fault.message}); retrying in {shown} ms"⟩
  | _ => none

def sleep? : PolicyEvent → Option Float
  | .slept seconds => some seconds
  | _ => none

def isAttempt : PolicyEvent → Bool
  | .attempted _ => true
  | _ => false

end PolicyEvent

end GraphQuery
