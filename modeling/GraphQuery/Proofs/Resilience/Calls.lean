import GraphQuery.Proofs.Resilience.Execution

/-! # Calls made one after another

Calls share breakers and cached results, and time goes on between them and during each of them. An
open circuit protects the backend over a whole run of calls.
-/

namespace GraphQuery

open Circuit

variable {Item : Type}

/-- The breaker that is kept under a name, if there is one. -/
def Guard.breaker? (name : String) (guard : Guard Item) : Option Breaker :=
  guard.registry.bind fun registry => Assoc.get? name registry.breakers

theorem Guard.getD_breaker? {guard : Guard Item} {registry : Registry}
    (shared : guard.registry = some registry) (name : String) :
    (guard.breaker? name).getD .fresh = registry.get name := by
  rw [breaker?, shared]
  rfl

/-- A call that is going to be made. -/
structure PlannedCall (Item : Type) where
  policy : Policy
  backend : Backend Item
  text : String
  /-- The time at which it is made if the call before it ended at some time. -/
  wait : Float → Float

/-- A call that was made: what was shared before and after it, how it ended and what happened. -/
structure MadeCall (Item : Type) where
  policy : Policy
  before : Guard Item
  result : Except Fault Item
  after : Guard Item
  events : List PolicyEvent

namespace MadeCall

/-- Whether the call was answered from the cache. -/
def isAnswered (call : MadeCall Item) : Bool :=
  (call.policy.cached call.before).1.isSome

/-- Whether the call ended because its own breaker refused an attempt. A backend may raise the same
fault by itself. -/
def IsRefused (call : MadeCall Item) : Prop :=
  call.result = .error (.circuitOpen call.policy.breaker) ∧ ∃ time, .refused time ∈ call.events

end MadeCall

namespace PlannedCall

/-- The clock is not turned back before the call and during it. -/
structure KeepsTime (call : PlannedCall Item) : Prop where
  wait : ∀ now, now ≤ now → now ≤ call.wait now
  backend : call.backend.KeepsTime

def make (call : PlannedCall Item) (guard : Guard Item) : MadeCall Item :=
  let before := { guard with clock := call.wait guard.clock }
  let outcome := call.policy.execute call.backend call.text before
  ⟨call.policy, before, outcome.1, outcome.2.1, outcome.2.2⟩

/-- Makes calls one after another. -/
def makeAll : List (PlannedCall Item) → Guard Item → List (MadeCall Item)
  | [], _ => []
  | call :: rest, guard => call.make guard :: makeAll rest (call.make guard).after

end PlannedCall

/-- What the breaker of a name sees of calls. -/
def historyOf (name : String) (calls : List (MadeCall Item)) : History :=
  calls.flatMap fun call => if call.policy.Uses name then call.events.map (call.policy, ·) else []

theorem historyOf_append (name : String) (first second : List (MadeCall Item)) :
    historyOf name (first ++ second) = historyOf name first ++ historyOf name second :=
  List.flatMap_append

theorem historyOf_singleton (name : String) (call : MadeCall Item) :
    historyOf name [call] =
      if call.policy.Uses name then call.events.map (call.policy, ·) else [] :=
  List.flatMap_singleton ..

/-- The circuit of a name protects the backend of the calls under the name. -/
structure Circuit.Protects (options : BreakerOptions) (name : String) (calls : List (MadeCall Item)) :
    Prop where
  /-- No attempt starts while the circuit is blocked. -/
  attempted : ∀ before policy time rest,
    historyOf name calls = before ++ (policy, .attempted time) :: rest → ¬IsBlocked options before time
  /-- A call is refused exactly when the circuit is blocked at one of its attempts. -/
  refused : ∀ earlier call later, calls = earlier ++ call :: later → call.policy.Uses name →
    (call.IsRefused ↔ ∃ before event rest time, call.events = before ++ event :: rest ∧
      event.asked? = some time ∧
      IsBlocked options (historyOf name earlier ++ before.map (call.policy, ·)) time)
  /-- From being open to being closed, the circuit is half open in between. -/
  halfOpen : ∀ before between rest, historyOf name calls = before ++ between ++ rest →
    (breakerAfter options before).state = .opened →
    (breakerAfter options (before ++ between)).state = .closed →
    ∃ first second, between = first ++ second ∧
      (breakerAfter options (before ++ first)).state = .halfOpen
  /-- The breaker that is kept under the name is the one of its history. -/
  kept : ∀ earlier call later, calls = earlier ++ call :: later →
    (call.before.breaker? name).getD .fresh = breakerAfter options (historyOf name earlier) ∧
    (call.after.breaker? name).getD .fresh = breakerAfter options (historyOf name (earlier ++ [call]))
  /-- Calls without the breaker and calls that are answered from the cache do not change it. -/
  unchanged : ∀ call ∈ calls, ¬call.policy.Uses name ∨ call.isAnswered = true →
    call.after.breaker? name = call.before.breaker? name

namespace PlannedCall

variable {call : PlannedCall Item} {calls : List (PlannedCall Item)} {guard : Guard Item}
  {registry : Registry} {now : Float}

/-- One call is a run of steps of the breaker of a name, without any step if the call does not use
the breaker. -/
theorem run_make (keepsTime : call.KeepsTime) (shared : guard.registry = some registry)
    (later : now ≤ guard.clock) (name : String) :
    ∃ left time, (call.make guard).after.registry = some left ∧ left.options = registry.options ∧
      time ≤ (call.make guard).after.clock ∧
      Run registry.options (registry.get name) now (historyOf name [call.make guard])
        (left.get name) time := by
  have waited := keepsTime.wait guard.clock (FloatForm.le_self_of_le later)
  have start := FloatForm.le_self_of_le waited
  obtain ⟨left, affects⟩ := Policy.affects_execute call.policy call.text
    { guard with clock := call.wait guard.clock } keepsTime.backend start shared
  rw [historyOf_singleton]
  by_cases uses : call.policy.Uses name
  · obtain ⟨time, before, run⟩ := affects.own name now uses (FloatForm.le_trans later waited)
    refine ⟨left, time, affects.kept, affects.options_eq, before, ?_⟩
    rw [if_pos (c := (call.make guard).policy.Uses name) uses]
    exact run
  · refine ⟨left, now, affects.kept, affects.options_eq, ?_, ?_⟩
    · exact FloatForm.le_trans (FloatForm.le_trans later waited) affects.le_clock
    · rw [if_neg (c := (call.make guard).policy.Uses name) uses, Registry.get, Registry.get,
        affects.others name uses]
      exact .nil _ _

/-- A call that does not use the breaker of a name leaves it as it is. -/
theorem breaker?_make_of_not_uses (keepsTime : call.KeepsTime) (shared : guard.registry = some registry)
    (later : now ≤ guard.clock) {name : String} (unused : ¬call.policy.Uses name) :
    (call.make guard).after.breaker? name = (call.make guard).before.breaker? name := by
  have waited := keepsTime.wait guard.clock (FloatForm.le_self_of_le later)
  obtain ⟨left, affects⟩ := Policy.affects_execute call.policy call.text
    { guard with clock := call.wait guard.clock } keepsTime.backend (FloatForm.le_self_of_le waited) shared
  have kept : (call.make guard).after.registry = some left := affects.kept
  have had : (call.make guard).before.registry = some registry := shared
  rw [Guard.breaker?, Guard.breaker?, kept, had]
  exact affects.others name unused

/-- Calls made one after another are a run of steps of the breaker of a name. -/
theorem run_makeAll (guard : Guard Item) (keepsTime : ∀ call ∈ calls, call.KeepsTime)
    (shared : guard.registry = some registry) (later : now ≤ guard.clock) (name : String) :
    ∃ after time,
      Run registry.options (registry.get name) now (historyOf name (makeAll calls guard)) after time := by
  induction calls generalizing guard registry now with
  | nil => exact ⟨_, _, .nil _ _⟩
  | cons call rest ih =>
    obtain ⟨first, others⟩ := List.forall_mem_cons.mp keepsTime
    obtain ⟨left, time, kept, options_eq, before, run⟩ := run_make first shared later name
    obtain ⟨after, final, steps⟩ := ih (call.make guard).after others kept before
    rw [options_eq] at steps
    have split : historyOf name (makeAll (call :: rest) guard) =
        historyOf name [call.make guard] ++ historyOf name (makeAll rest (call.make guard).after) :=
      historyOf_append name [_] _
    rw [split]
    exact ⟨after, final, run.append steps⟩

/-- Every one of the calls is made with the breakers that those before it left. -/
theorem exists_make_of_split {earlier later : List (MadeCall Item)} {made : MadeCall Item}
    (keepsTime : ∀ call ∈ calls, call.KeepsTime) (shared : guard.registry = some registry)
    (before : now ≤ guard.clock) (split : makeAll calls guard = earlier ++ made :: later) (name : String) :
    ∃ (call : PlannedCall Item) (guard' : Guard Item) (registry' : Registry) (time : Float),
      made = call.make guard' ∧ call.KeepsTime ∧
      guard'.registry = some registry' ∧ registry'.options = registry.options ∧ time ≤ guard'.clock ∧
      Run registry.options (registry.get name) now (historyOf name earlier) (registry'.get name) time := by
  induction earlier generalizing calls guard registry now with
  | nil =>
    cases calls with
    | nil => cases split
    | cons call rest =>
      obtain ⟨rfl, -⟩ := List.cons.inj split
      exact ⟨call, guard, registry, now, rfl, keepsTime call (List.mem_cons_self ..), shared, rfl, before,
        .nil _ _⟩
  | cons first earlier ih =>
    cases calls with
    | nil => cases split
    | cons call rest =>
      obtain ⟨rfl, rest_split⟩ := List.cons.inj split
      obtain ⟨keeps, others⟩ := List.forall_mem_cons.mp keepsTime
      obtain ⟨left, time, kept, options_eq, before, run⟩ := run_make keeps shared before name
      obtain ⟨call', guard', registry', time', rfl, keeps', shared', options', before', steps⟩ :=
        ih others kept before rest_split
      rw [options_eq] at steps options'
      refine ⟨call', guard', registry', time', rfl, keeps', shared', options', before', ?_⟩
      have whole : historyOf name (call.make guard :: earlier) =
          historyOf name [call.make guard] ++ historyOf name earlier := historyOf_append name [_] _
      rw [whole]
      exact run.append steps

end PlannedCall

section Protection

variable {options : BreakerOptions} {name : String} {calls : List (PlannedCall Item)}
  {guard : Guard Item}

open PlannedCall

theorem isHistory_historyOf (keepsTime : ∀ call ∈ calls, call.KeepsTime)
    (new : guard.registry = some (.empty options)) (isTime : guard.clock ≤ guard.clock) (name : String) :
    IsHistory options (historyOf name (makeAll calls guard)) := by
  obtain ⟨after, time, run⟩ := run_makeAll guard keepsTime new isTime name
  exact ⟨guard.clock, after, time, run⟩

private theorem isBlocked_iff_of_split {made earlier later : List (MadeCall Item)} {call : MadeCall Item}
    {before rest : List PolicyEvent} {event : PolicyEvent} {time : Float}
    (isHistory : IsHistory options (historyOf name made)) (split : made = earlier ++ call :: later)
    (uses : call.policy.Uses name) (events : call.events = before ++ event :: rest)
    (asked : event.asked? = some time) :
    IsBlocked options (historyOf name earlier ++ before.map (call.policy, ·)) time ↔
      event = .refused time := by
  have parted : historyOf name made = (historyOf name earlier ++ before.map (call.policy, ·)) ++
      (call.policy, event) :: (rest.map (call.policy, ·) ++ historyOf name later) := by
    rw [split, ← List.singleton_append, historyOf_append, historyOf_append, historyOf_singleton,
      if_pos uses, events]
    simp
  rw [parted] at isHistory
  exact isBlocked_iff_refused isHistory asked

/-- Open circuits protect the backend over a whole run of calls that share their breakers, while no
clock is turned back. -/
theorem protects_makeAll (keepsTime : ∀ call ∈ calls, call.KeepsTime)
    (new : guard.registry = some (.empty options)) (isTime : guard.clock ≤ guard.clock) (name : String) :
    Protects options name (makeAll calls guard) where
  attempted before policy time rest split blocked := by
    have isHistory := isHistory_historyOf keepsTime new isTime name
    rw [split] at isHistory
    have refused := (isBlocked_iff_refused isHistory rfl).mp blocked
    cases refused
  refused earlier call later split uses := by
    have isHistory := isHistory_historyOf keepsTime new isTime name
    constructor
    · rintro ⟨-, time, among⟩
      obtain ⟨before, rest, events⟩ := List.append_of_mem among
      refine ⟨before, _, rest, time, events, rfl, ?_⟩
      exact (isBlocked_iff_of_split isHistory split uses events rfl).mpr rfl
    · rintro ⟨before, event, rest, time, events, asked, blocked⟩
      obtain rfl := (isBlocked_iff_of_split isHistory split uses events asked).mp blocked
      have among : .refused time ∈ call.events := by simp [events]
      obtain ⟨planned, guard', registry', -, rfl, -, shared, -⟩ :=
        exists_make_of_split keepsTime new isTime split name
      exact ⟨Policy.result_of_refused shared among, time, among⟩
  halfOpen before between rest split opened closed := by
    have isHistory := isHistory_historyOf keepsTime new isTime name
    rw [split] at isHistory
    exact exists_halfOpen_of_opened_of_closed isHistory opened closed
  kept earlier call later split := by
    obtain ⟨planned, guard', registry', time, rfl, keeps, shared, same, began, front⟩ :=
      exists_make_of_split keepsTime new isTime split name
    obtain ⟨left, time', kept, -, -, back⟩ := run_make keeps shared began name
    rw [same] at back
    constructor
    · have sharedBefore : (planned.make guard').before.registry = some registry' := shared
      rw [Guard.getD_breaker? sharedBefore]
      exact front.foldl_observe_eq.symm
    · rw [Guard.getD_breaker? kept, historyOf_append]
      exact (front.append back).foldl_observe_eq.symm
  unchanged call among untouched := by
    obtain ⟨earlier, later, split⟩ := List.append_of_mem among
    obtain ⟨planned, guard', registry', time, rfl, keeps, shared, same, began, front⟩ :=
      exists_make_of_split keepsTime new isTime split name
    rcases untouched with unused | answered
    · exact breaker?_make_of_not_uses keeps shared began unused
    · have registry_eq : (planned.make guard').after.registry = (planned.make guard').before.registry :=
        Policy.registry_execute_of_answered answered
      rw [Guard.breaker?, Guard.breaker?, registry_eq]

end Protection

def waitUntil (time now : Float) : Float :=
  if now ≤ time then time else now

theorem le_waitUntil (time : Float) {now : Float} (isTime : now ≤ now) : now ≤ waitUntil time now := by
  unfold waitUntil
  split
  · assumption
  · exact isTime

/-- A call of an outage: at a time, under the name of a database, with an end. -/
def outageCall (time : Float) (attempt : Attempt Nat) : PlannedCall Nat where
  policy := { Policy.none with breaker := "db" }
  backend := ⟨fun _ now => (attempt, now), fun _ now => now, fun _ => 0, fun _ => 0, fun _ => true⟩
  text := "RETURN 1"
  wait := waitUntil time

theorem keepsTime_outageCall (time : Float) (attempt : Attempt Nat) :
    (outageCall time attempt).KeepsTime where
  wait _ isTime := le_waitUntil time isTime
  backend := ⟨fun _ _ isTime => isTime, fun _ _ isTime => isTime⟩

/-- A database fails, is not asked for a second, and then answers. -/
def outage : List (MadeCall Nat) :=
  PlannedCall.makeAll
    [outageCall 0 .late, outageCall 0.5 (.answered 7), outageCall 1.5 (.answered 7)]
    ⟨some (.empty ⟨1, .int 1000⟩), none, 0⟩

theorem protects_makeAll_outage :
    Protects ⟨1, .int 1000⟩ "db" outage ∧
      outage.map (·.events.any PolicyEvent.isAttempt) = [true, false, true] := by
  refine ⟨protects_makeAll ?_ rfl (by decide +kernel) "db", by decide +kernel⟩
  intro call among
  simp only [List.mem_cons, List.not_mem_nil, or_false] at among
  rcases among with rfl | rfl | rfl <;> exact keepsTime_outageCall _ _

end GraphQuery
