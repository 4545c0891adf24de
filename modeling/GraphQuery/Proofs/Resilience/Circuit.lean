import GraphQuery.Proofs.Resilience.Elapsed
import GraphQuery.Resilience.Execution

/-! # What a circuit breaker has seen

A circuit breaker sees the questions, the successes and the failures of the calls under its name.
The failures since the last success and the time of the last of them decide whether it refuses:
`Tracks` relates them to the state that a breaker keeps, every step preserves it, and so does every
run of steps.
-/

namespace GraphQuery

namespace PolicyEvent

/-- The time at which a breaker is asked. -/
def asked? : PolicyEvent → Option Float
  | .refused time | .attempted time => some time
  | _ => none

/-- Whether a breaker takes no notice of an event. -/
def isUnseen : PolicyEvent → Bool
  | .answeredFromCache _ | .retrying .. | .slept _ => true
  | _ => false

theorem asked?_of_isUnseen {event : PolicyEvent} (unseen : event.isUnseen = true) :
    event.asked? = none := by
  cases event <;> first | rfl | cases unseen

end PolicyEvent

namespace Circuit

/-- The events of the calls under one name, each with the policy of its call. -/
abbrev History : Type :=
  List (Policy × PolicyEvent)

/-- The times of the failures since the last success, after one more event. A failure counts if its
policy retries it. -/
def noteFailure (times : List Float) : Policy × PolicyEvent → List Float
  | (_, .succeeded _) => []
  | (policy, .failed time fault) => if policy.isRetried fault then times ++ [time] else times
  | _ => times

/-- The times of the failures that count since the last success. -/
def failureTimes (history : History) : List Float :=
  history.foldl noteFailure []

/-- Whether calls have to be refused at a time: there were as many failures as open a breaker, and
the reset time has not passed since the last of them. -/
def IsBlocked (options : BreakerOptions) (history : History) (time : Float) : Prop :=
  options.limit ≤ (failureTimes history).length ∧
    ∃ last, (failureTimes history).getLast? = some last ∧
      hasPassed options.resetTimeout last time = false

def observe (options : BreakerOptions) (breaker : Breaker) : Policy × PolicyEvent → Breaker
  | (_, .refused time) | (_, .attempted time) => (breaker.ask options time).2
  | (_, .succeeded _) => breaker.succeed
  | (policy, .failed time fault) =>
    if policy.isRetried fault then breaker.fail options time else breaker
  | _ => breaker

/-- The breaker after a history, new at its beginning. -/
def breakerAfter (options : BreakerOptions) (history : History) : Breaker :=
  history.foldl (observe options) .fresh

/-! ## Steps -/

/-- An event changes a breaker and the time of the latest event. A breaker that admits an attempt is
not told of a success while it is open. -/
inductive Step (options : BreakerOptions) :
    Breaker → Float → Policy × PolicyEvent → Breaker → Float → Prop where
  | refused {breaker after : Breaker} {now time : Float} {policy : Policy} (later : now ≤ time)
      (asked : breaker.ask options time = (true, after)) :
      Step options breaker now (policy, .refused time) after time
  | attempted {breaker after : Breaker} {now time : Float} {policy : Policy} (later : now ≤ time)
      (asked : breaker.ask options time = (false, after)) :
      Step options breaker now (policy, .attempted time) after time
  | succeeded {breaker : Breaker} {now time : Float} {policy : Policy} (later : now ≤ time)
      (admitted : breaker.state ≠ .opened) :
      Step options breaker now (policy, .succeeded time) breaker.succeed time
  | failed {breaker : Breaker} {now time : Float} {policy : Policy} {fault : Fault}
      (later : now ≤ time) (counts : policy.isRetried fault = true) :
      Step options breaker now (policy, .failed time fault) (breaker.fail options time) time
  | passed {breaker : Breaker} {now time : Float} {policy : Policy} {fault : Fault}
      (later : now ≤ time) (ignored : policy.isRetried fault = false) :
      Step options breaker now (policy, .failed time fault) breaker time
  | unseen {breaker : Breaker} {now : Float} {policy : Policy} {event : PolicyEvent}
      (unseen : event.isUnseen = true) : Step options breaker now (policy, event) breaker now

variable {options : BreakerOptions} {breaker after : Breaker} {now final : Float}
  {entry : Policy × PolicyEvent}

theorem Step.observe_eq (step : Step options breaker now entry after final) :
    observe options breaker entry = after := by
  cases step with
  | refused _ asked => exact congrArg Prod.snd asked
  | attempted _ asked => exact congrArg Prod.snd asked
  | succeeded => rfl
  | failed _ counts => exact if_pos counts
  | passed _ ignored => exact if_neg (by simp [ignored])
  | unseen unseen =>
    rename_i policy event
    cases event <;> first | rfl | cases unseen

theorem ask_of_opened (opened : breaker.state = .opened) (time : Float) :
    breaker.ask options time =
      if hasPassed options.resetTimeout breaker.lastFailure time then
        (false, { breaker with state := .halfOpen })
      else (true, breaker) := by
  rw [Breaker.ask, opened]

theorem ask_of_not_opened (notOpened : breaker.state ≠ .opened) (time : Float) :
    breaker.ask options time = (false, breaker) := by
  unfold Breaker.ask
  split
  · exact absurd ‹_› notOpened
  · rfl

/-- A breaker that admits an attempt is not open. -/
theorem state_ask_of_admitted {time : Float} (admitted : (breaker.ask options time).1 = false) :
    (breaker.ask options time).2.state ≠ .opened := by
  by_cases opened : breaker.state = .opened
  · rw [ask_of_opened opened] at admitted ⊢
    by_cases passed : hasPassed options.resetTimeout breaker.lastFailure time = true
    · rw [if_pos passed]
      simp
    · rw [if_neg passed] at admitted
      cases admitted
  · rw [ask_of_not_opened opened]
    exact opened

theorem state_fail_of_opened (opened : breaker.state = .opened) (time : Float) :
    (breaker.fail options time).state = .opened := by
  simp only [Breaker.fail, opened]
  split <;> rfl

/-- An open breaker is not closed by a single step. -/
theorem Step.not_closed_of_opened (step : Step options breaker now entry after final)
    (opened : breaker.state = .opened) : after.state ≠ .closed := by
  cases step with
  | refused later asked | attempted later asked =>
    rw [ask_of_opened opened] at asked
    split at asked
    · cases asked <;> simp
    · cases asked <;> simp [opened]
  | succeeded later admitted => exact absurd opened admitted
  | failed later counts => simp [state_fail_of_opened opened]
  | passed | unseen => simp [opened]

/-! ## What a breaker keeps of its history -/

/-- A breaker and the latest time that it knows agree with the failures since the last success. -/
structure Tracks (options : BreakerOptions) (times : List Float) (breaker : Breaker) (now : Float) :
    Prop where
  failures_eq : breaker.failures = times.length
  last : ∀ time, times.getLast? = some time → breaker.lastFailure = time ∧ time ≤ now
  closed : breaker.state = .closed → times.length < options.limit
  notClosed : breaker.state ≠ .closed → options.limit ≤ times.length
  halfOpen : breaker.state = .halfOpen →
    hasPassed options.resetTimeout breaker.lastFailure now = true

theorem limit_pos (options : BreakerOptions) : 0 < options.limit := by
  unfold BreakerOptions.limit
  omega

theorem tracks_fresh (options : BreakerOptions) (now : Float) : Tracks options [] .fresh now where
  failures_eq := rfl
  last := by simp
  closed _ := limit_pos options
  notClosed open? := absurd rfl open?
  halfOpen open? := by cases open?

namespace Tracks

variable {times : List Float} {time : Float}

/-- A breaker that is not closed knows when the last failure was. -/
theorem last_of_notClosed (tracks : Tracks options times breaker now)
    (notClosed : breaker.state ≠ .closed) :
    times.getLast? = some breaker.lastFailure ∧ breaker.lastFailure ≤ now := by
  have nonempty : times ≠ [] := by
    rintro rfl
    exact absurd (tracks.notClosed notClosed) (limit_pos options).not_ge
  obtain ⟨same, before⟩ := tracks.last _ (List.getLast?_eq_some_getLast nonempty)
  rw [List.getLast?_eq_some_getLast nonempty, same]
  exact ⟨rfl, before⟩

/-- Time goes on. -/
theorem wait (tracks : Tracks options times breaker now) (later : now ≤ time) :
    Tracks options times breaker time where
  failures_eq := tracks.failures_eq
  last final isLast := by
    obtain ⟨same, before⟩ := tracks.last final isLast
    exact ⟨same, FloatForm.le_trans before later⟩
  closed := tracks.closed
  notClosed := tracks.notClosed
  halfOpen halfOpen := by
    have known := tracks.last_of_notClosed (by simp [halfOpen])
    exact hasPassed_mono known.2 later (tracks.halfOpen halfOpen)

/-- A breaker refuses exactly when its history says so. -/
theorem refuses_iff (tracks : Tracks options times breaker now) (later : now ≤ time) :
    (breaker.ask options time).1 = true ↔
      options.limit ≤ times.length ∧ ∃ last, times.getLast? = some last ∧
        hasPassed options.resetTimeout last time = false := by
  cases state : breaker.state with
  | closed =>
    rw [ask_of_not_opened (by simp [state])]
    have few := tracks.closed state
    constructor
    · rintro ⟨⟩
    · rintro ⟨many, -⟩
      exact absurd many few.not_ge
  | opened =>
    have notClosed : breaker.state ≠ .closed := by simp [state]
    obtain ⟨isLast, -⟩ := tracks.last_of_notClosed notClosed
    rw [ask_of_opened state, isLast]
    constructor
    · intro refused
      split at refused
      · cases refused
      · rename_i notPassed
        exact ⟨tracks.notClosed notClosed, _, rfl, eq_false_of_ne_true notPassed⟩
    · rintro ⟨-, last, ⟨⟩, notPassed⟩
      rw [notPassed]
      rfl
  | halfOpen =>
    rw [ask_of_not_opened (by simp [state])]
    have passed := (tracks.wait later).halfOpen state
    obtain ⟨isLast, -⟩ := tracks.last_of_notClosed (by simp [state])
    constructor
    · rintro ⟨⟩
    · rintro ⟨-, last, found, notPassed⟩
      obtain rfl := Option.some.inj (isLast.symm.trans found)
      rw [passed] at notPassed
      cases notPassed

theorem ask (tracks : Tracks options times breaker now) (later : now ≤ time) :
    Tracks options times (breaker.ask options time).2 time := by
  by_cases opened : breaker.state = .opened
  · rw [ask_of_opened opened]
    split
    · have waited := tracks.wait later
      exact {
        failures_eq := waited.failures_eq
        last := waited.last
        closed := by rintro ⟨⟩
        notClosed := fun _ => waited.notClosed (by simp [opened])
        halfOpen := fun _ => ‹_› }
    · exact tracks.wait later
  · rw [ask_of_not_opened opened]
    exact tracks.wait later

theorem succeed (options : BreakerOptions) (breaker : Breaker) (now : Float) :
    Tracks options [] breaker.succeed now where
  failures_eq := rfl
  last := by simp
  closed _ := limit_pos options
  notClosed notClosed := absurd rfl notClosed
  halfOpen halfOpen := by cases halfOpen

theorem fail (tracks : Tracks options times breaker now) (later : now ≤ time) :
    Tracks options (times ++ [time]) (breaker.fail options time) time := by
  have failures : breaker.failures + 1 = (times ++ [time]).length := by
    rw [tracks.failures_eq, List.length_append, List.length_singleton]
  have more : times.length ≤ (times ++ [time]).length := by simp
  have state : (breaker.fail options time).state =
      if breaker.state = .halfOpen ∨ options.limit ≤ (times ++ [time]).length then .opened
      else breaker.state := by
    simp [Breaker.fail, ← failures]
  refine ⟨failures, ?_, ?_, ?_, ?_⟩
  · intro final isLast
    rw [List.getLast?_concat] at isLast
    obtain rfl := Option.some.inj isLast
    exact ⟨rfl, FloatForm.le_self_of_le later⟩
  · intro closed
    rw [state] at closed
    split at closed
    · cases closed
    · rename_i few
      exact not_le.mp fun many => few (.inr many)
  · intro notClosed
    rw [state] at notClosed
    split at notClosed
    · rename_i opens
      rcases opens with halfOpen | many
      · exact (tracks.notClosed (by simp [halfOpen])).trans more
      · exact many
    · exact (tracks.notClosed notClosed).trans more
  · intro halfOpen
    rw [state] at halfOpen
    split at halfOpen
    · cases halfOpen
    · rename_i opens
      exact absurd (.inl halfOpen) opens

/-- A step keeps a breaker and its history in agreement. -/
theorem step (tracks : Tracks options times breaker now)
    (step : Step options breaker now entry after final) :
    Tracks options (noteFailure times entry) after final := by
  cases step with
  | refused later asked | attempted later asked =>
    have next := tracks.ask later
    rwa [asked] at next
  | succeeded => exact succeed options breaker final
  | failed later counts =>
    rw [noteFailure, if_pos counts]
    exact tracks.fail later
  | passed later ignored =>
    rw [noteFailure, if_neg (by simp [ignored])]
    exact tracks.wait later
  | unseen unseen =>
    rename_i policy event
    cases event <;> first | exact tracks | cases unseen

end Tracks

/-! ## Runs -/

/-- The steps that a history takes, one after another. -/
inductive Run (options : BreakerOptions) : Breaker → Float → History → Breaker → Float → Prop where
  | nil (breaker : Breaker) (now : Float) : Run options breaker now [] breaker now
  | cons {breaker next after : Breaker} {now time final : Float} {entry : Policy × PolicyEvent}
      {rest : History} (step : Step options breaker now entry next time)
      (steps : Run options next time rest after final) :
      Run options breaker now (entry :: rest) after final

namespace Run

variable {history first second : History}

theorem append {next : Breaker} {time : Float} (run : Run options breaker now first next time)
    (rest : Run options next time second after final) :
    Run options breaker now (first ++ second) after final := by
  induction run with
  | nil => exact rest
  | cons step _ ih => exact .cons step (ih rest)

theorem of_append (run : Run options breaker now (first ++ second) after final) :
    ∃ next time, Run options breaker now first next time ∧ Run options next time second after final := by
  induction first generalizing breaker now with
  | nil => exact ⟨_, _, .nil _ _, run⟩
  | cons entry rest ih =>
    cases run with
    | cons step steps =>
      obtain ⟨next, time, front, back⟩ := ih steps
      exact ⟨next, time, .cons step front, back⟩

theorem foldl_observe_eq (run : Run options breaker now history after final) :
    history.foldl (observe options) breaker = after := by
  induction run with
  | nil => rfl
  | cons step _ ih => rw [List.foldl_cons, step.observe_eq, ih]

theorem tracks {times : List Float} (run : Run options breaker now history after final)
    (initial : Tracks options times breaker now) :
    Tracks options (history.foldl noteFailure times) after final := by
  induction run generalizing times with
  | nil => exact initial
  | cons step _ ih => exact ih (initial.step step)

end Run

/-- A history that begins with a new breaker. -/
def IsHistory (options : BreakerOptions) (history : History) : Prop :=
  ∃ start after final, Run options .fresh start history after final

section Histories

variable {before rest between : History} {policy : Policy} {event : PolicyEvent} {time : Float}

/-- The breaker is asked at a time: it refuses exactly when the history before says so. -/
theorem isBlocked_iff_refused (isHistory : IsHistory options (before ++ (policy, event) :: rest))
    (asked : event.asked? = some time) :
    IsBlocked options before time ↔ event = .refused time := by
  obtain ⟨start, after, final, run⟩ := isHistory
  obtain ⟨next, now, front, back⟩ := run.of_append
  have tracks := front.tracks (tracks_fresh options start)
  cases back with
  | cons step _ =>
    cases step with
    | refused later answer =>
      obtain rfl := Option.some.inj asked
      have refuses := tracks.refuses_iff later
      rw [answer] at refuses
      exact ⟨fun _ => rfl, fun _ => refuses.mp rfl⟩
    | attempted later answer =>
      obtain rfl := Option.some.inj asked
      have refuses := tracks.refuses_iff later
      rw [answer] at refuses
      exact ⟨fun blocked => absurd (refuses.mpr blocked) (by simp), by rintro ⟨⟩⟩
    | succeeded | failed | passed => cases asked
    | unseen unseen =>
      rw [PolicyEvent.asked?_of_isUnseen unseen] at asked
      cases asked

/-- A single event does not close an open breaker. -/
theorem not_closed_of_opened (isHistory : IsHistory options (before ++ entry :: rest))
    (opened : (breakerAfter options before).state = .opened) :
    (breakerAfter options (before ++ [entry])).state ≠ .closed := by
  obtain ⟨start, after, final, run⟩ := isHistory
  obtain ⟨next, now, front, back⟩ := run.of_append
  cases back with
  | cons step _ =>
    have same : breakerAfter options before = next := front.foldl_observe_eq
    rw [same] at opened
    rw [breakerAfter, List.foldl_append]
    change (observe options (breakerAfter options before) entry).state ≠ .closed
    rw [same, step.observe_eq]
    exact step.not_closed_of_opened opened

/-- Between being open and being closed a breaker is half open. -/
theorem exists_halfOpen_of_opened_of_closed (isHistory : IsHistory options (before ++ between ++ rest))
    (opened : (breakerAfter options before).state = .opened)
    (closed : (breakerAfter options (before ++ between)).state = .closed) :
    ∃ first second, between = first ++ second ∧
      (breakerAfter options (before ++ first)).state = .halfOpen := by
  induction between generalizing before with
  | nil =>
    rw [List.append_nil, opened] at closed
    cases closed
  | cons entry between ih =>
    rw [List.append_assoc] at isHistory
    cases state : (breakerAfter options (before ++ [entry])).state with
    | closed => exact absurd state (not_closed_of_opened isHistory opened)
    | halfOpen => exact ⟨[entry], between, rfl, state⟩
    | opened =>
      have shifted : before ++ entry :: between = before ++ [entry] ++ between := by simp
      rw [shifted] at closed
      obtain ⟨first, second, rfl, halfOpen⟩ := ih (by simpa using isHistory) state closed
      refine ⟨entry :: first, second, rfl, ?_⟩
      simpa using halfOpen

end Histories

end Circuit

end GraphQuery
