import GraphQuery.Proofs.Resilience.Operation

/-! # Callers that share a breaker

Several callers ask one breaker. A caller that is admitted makes an attempt and reports how it ends
before it asks again. Attempts of different callers overlap, so an end may be reported when the breaker
is no longer in the state in which it admitted the attempt. A failure that is reported late keeps an open
breaker shut for longer, but a success that is reported late closes it at once. `staysShut_iff` says that
nothing else lets a caller in before the reset time has passed.
-/

namespace GraphQuery

namespace Circuit

variable {Caller : Type} [DecidableEq Caller]

/-! ## Interleavings -/

/-- A breaker, the callers whose attempts have not ended, and the time of the latest step. -/
structure Shared (Caller : Type) where
  breaker : Breaker
  attempting : List Caller
  now : Float

namespace Shared

/-- A new breaker that no caller has asked yet. -/
def fresh (start : Float) : Shared Caller :=
  ⟨.fresh, [], start⟩

/-- Whether a caller can make a step: only a caller without an attempt asks, only a caller with an
attempt reports its end, and the clock is not turned back. -/
def allows (shared : Shared Caller) (caller : Caller) (operation : Operation) : Bool :=
  shared.now ≤ operation.time &&
    match operation with
    | .ask _ => !shared.attempting.contains caller
    | .succeed _ | .fail _ => shared.attempting.contains caller

/-- The callers with attempts after a step: who is admitted makes one. -/
def attemptingAfter (options : BreakerOptions) (shared : Shared Caller) (caller : Caller) :
    Operation → List Caller
  | .ask time =>
    if (shared.breaker.ask options time).1 then shared.attempting else caller :: shared.attempting
  | .succeed _ | .fail _ => shared.attempting.filter (· ≠ caller)

/-- What callers share after a step of one of them, if it can make the step. -/
def step? (options : BreakerOptions) (shared : Shared Caller) (step : Caller × Operation) :
    Option (Shared Caller) :=
  if shared.allows step.1 step.2 then
    some ⟨step.2.apply options shared.breaker, shared.attemptingAfter options step.1 step.2, step.2.time⟩
  else none

/-- What callers share after one step after another. -/
def run? (options : BreakerOptions) : Shared Caller → List (Caller × Operation) → Option (Shared Caller)
  | shared, [] => some shared
  | shared, step :: rest => (shared.step? options step).bind (run? options · rest)

theorem step?_of_allows {shared : Shared Caller} {caller : Caller} {operation : Operation}
    (options : BreakerOptions) (allowed : shared.allows caller operation = true) :
    shared.step? options (caller, operation) = some ⟨operation.apply options shared.breaker,
      shared.attemptingAfter options caller operation, operation.time⟩ :=
  if_pos allowed

theorem run?_append (options : BreakerOptions) (shared : Shared Caller)
    (first second : List (Caller × Operation)) :
    shared.run? options (first ++ second) =
      (shared.run? options first).bind (run? options · second) := by
  induction first generalizing shared with
  | nil => rfl
  | cons step rest ih => simp only [List.cons_append, run?, ih, Option.bind_assoc]

end Shared

/-- Callers can make these steps, one after another, on a breaker that is new at the start. -/
def IsInterleaving (options : BreakerOptions) (start : Float) (steps : List (Caller × Operation)) : Prop :=
  ((Shared.fresh start).run? options steps).isSome = true

variable {options : BreakerOptions} {start time now : Float} {steps before rest : List (Caller × Operation)}
  {caller : Caller} {operations first second : List Operation}

theorem IsInterleaving.of_append (interleaved : IsInterleaving options start (before ++ rest)) :
    IsInterleaving options start before := by
  rw [IsInterleaving, Shared.run?_append] at interleaved
  exact Option.isSome_of_isSome_bind interleaved

/-- Who has just reported the end of an attempt can ask again at once. -/
theorem IsInterleaving.ask_again
    (interleaved : IsInterleaving options start (before ++ [(caller, .succeed time)])) :
    IsInterleaving options start (before ++ [(caller, .succeed time)] ++ [(caller, .ask time)]) := by
  obtain ⟨shared, ran⟩ := Option.isSome_iff_exists.mp interleaved
  rw [Shared.run?_append, Option.bind_eq_some_iff] at ran
  obtain ⟨earlier, ranBefore, ranLast⟩ := ran
  have allowed : earlier.allows caller (.succeed time) = true := by
    by_contra refused
    simp [Shared.run?, Shared.step?, refused] at ranLast
  have isTime : time ≤ time := by
    simp only [Shared.allows, Bool.and_eq_true, decide_eq_true_eq] at allowed
    exact FloatForm.le_self_of_le allowed.1
  have free : Shared.allows ⟨Operation.apply options earlier.breaker (.succeed time),
      earlier.attemptingAfter options caller (.succeed time), time⟩ caller (.ask time) = true := by
    simp [Shared.allows, Shared.attemptingAfter, Operation.time, isTime]
  rw [IsInterleaving, List.append_assoc, Shared.run?_append, ranBefore, Option.bind_some,
    List.singleton_append, Shared.run?, Shared.step?_of_allows options allowed, Option.bind_some,
    Shared.run?, Operation.time, Shared.step?_of_allows options free]
  rfl

/-! ## How long a breaker has to stay shut -/

/-- The time of the last failure of which a breaker was told. -/
def lastFailure? (operations : List Operation) : Option Float :=
  (operations.filterMap Operation.failure?).getLast?

/-- The time of the first of some operations, or of the moment after them if there are none. -/
def nextTime (operations : List Operation) (now : Float) : Float :=
  (operations.head?.map Operation.time).getD now

/-- After some operations a breaker has to stay shut at a moment: it was open once, and since then there
was no moment at which the reset time had passed since the last failure. -/
def HasToStayShut (options : BreakerOptions) (operations : List Operation) (now : Float) : Prop :=
  ∃ first second, operations = first ++ second ∧ (afterAll options first).state = .opened ∧
    ∀ earlier later, second = earlier ++ later → ∃ last, lastFailure? (first ++ earlier) = some last ∧
      hasPassed options.resetTimeout last (nextTime later now) = false

/-- Whoever asks at a moment at which the breaker has to stay shut is refused. -/
def StaysShut (options : BreakerOptions) (start : Float) (steps : List (Caller × Operation)) : Prop :=
  ∀ before rest caller now, steps = before ++ rest →
    IsInterleaving options start (before ++ [(caller, .ask now)]) →
    HasToStayShut options (before.map Prod.snd) now →
    ((afterAll options (before.map Prod.snd)).ask options now).1 = true

/-- A success that is reported while the breaker is open and the reset time has not passed since the last
failure. -/
def HasEarlySuccess (options : BreakerOptions) (operations : List Operation) : Prop :=
  ∃ first time second, operations = first ++ .succeed time :: second ∧
    (afterAll options first).state = .opened ∧
    ∃ last, lastFailure? first = some last ∧ hasPassed options.resetTimeout last time = false

theorem lastFailure?_append_of_none {operation : Operation} (noFailure : operation.failure? = none) :
    lastFailure? (operations ++ [operation]) = lastFailure? operations := by
  simp [lastFailure?, noFailure]

theorem lastFailure?_fail : lastFailure? (operations ++ [.fail time]) = some time := by
  simp [lastFailure?, Operation.failure?]

/-- A breaker that is not closed knows when the last failure was. -/
theorem lastFailure?_of_notClosed (notClosed : (afterAll options operations).state ≠ .closed) :
    lastFailure? operations = some (afterAll options operations).lastFailure := by
  induction operations using List.reverseRecOn with
  | nil => exact absurd rfl notClosed
  | append_singleton operations operation ih =>
    rw [afterAll_concat] at notClosed ⊢
    cases operation with
    | ask time =>
      rw [lastFailure?_append_of_none rfl]
      by_cases opened : (afterAll options operations).state = .opened
      · rw [ih (by simp [opened]), Operation.apply, ask_of_opened opened]
        split <;> rfl
      · rw [Operation.apply, ask_of_not_opened opened] at notClosed ⊢
        exact ih notClosed
    | succeed time => exact absurd rfl notClosed
    | fail time => exact lastFailure?_fail

/-- A breaker that is open stays open over an operation unless the reset time has passed since the last
failure or it is told of a success. -/
theorem opened_apply {breaker : Breaker} {operation : Operation} (opened : breaker.state = .opened)
    (notPassed : hasPassed options.resetTimeout breaker.lastFailure operation.time = false)
    (noSuccess : operation.isSuccess = false) : (operation.apply options breaker).state = .opened := by
  cases operation with
  | ask time =>
    rw [Operation.time] at notPassed
    rw [Operation.apply, ask_of_opened opened, notPassed]
    exact opened
  | succeed time => cases noSuccess
  | fail time => exact state_fail_of_opened opened time

/-- While a breaker has to stay shut it is open, unless a success was reported early. -/
theorem opened_of_hasToStayShut (onTime : ¬HasEarlySuccess options operations)
    (shut : HasToStayShut options operations now) :
    (afterAll options operations).state = .opened ∧
      hasPassed options.resetTimeout (afterAll options operations).lastFailure now = false := by
  obtain ⟨first, second, rfl, opened, notPassed⟩ := shut
  have opened_of_earlier : ∀ earlier later, second = earlier ++ later →
      (afterAll options (first ++ earlier)).state = .opened := by
    intro earlier
    induction earlier using List.reverseRecOn with
    | nil => simpa using opened
    | append_singleton earlier operation ih =>
      intro later split
      have split' : second = earlier ++ operation :: later := by simpa using split
      have still := ih (operation :: later) split'
      obtain ⟨last, isLast, notYet⟩ := notPassed earlier (operation :: later) split'
      rw [← List.append_assoc, afterAll_concat]
      refine opened_apply still ?_ ?_
      · have known : lastFailure? (first ++ earlier) =
            some (afterAll options (first ++ earlier)).lastFailure :=
          lastFailure?_of_notClosed (by simp [still])
        obtain rfl := Option.some.inj (isLast.symm.trans known)
        exact notYet
      · by_contra isSuccess
        cases operation with
        | succeed time =>
          exact onTime ⟨first ++ earlier, time, later, by simp [split'], still, last, isLast, notYet⟩
        | ask | fail => simp [Operation.isSuccess] at isSuccess
  have still := opened_of_earlier second [] (List.append_nil _).symm
  obtain ⟨last, isLast, notYet⟩ := notPassed second [] (List.append_nil _).symm
  have known : lastFailure? (first ++ second) = some (afterAll options (first ++ second)).lastFailure :=
    lastFailure?_of_notClosed (by simp [still])
  obtain rfl := Option.some.inj (isLast.symm.trans known)
  exact ⟨still, notYet⟩

/-- At the moment of an early success the breaker has to stay shut. -/
theorem hasToStayShut_succeed {last : Float} (opened : (afterAll options operations).state = .opened)
    (isLast : lastFailure? operations = some last)
    (notPassed : hasPassed options.resetTimeout last time = false) :
    HasToStayShut options (operations ++ [.succeed time]) time := by
  refine ⟨operations, [.succeed time], rfl, opened, ?_⟩
  intro earlier later split
  rcases List.append_eq_singleton_iff.mp split.symm with ⟨rfl, rfl⟩ | ⟨rfl, rfl⟩
  · exact ⟨last, by simpa using isLast, notPassed⟩
  · exact ⟨last, by rwa [lastFailure?_append_of_none rfl], notPassed⟩

/-- A breaker that callers share stays shut exactly if no success is reported while it is open and the
reset time has not passed since the last failure. -/
theorem staysShut_iff (interleaved : IsInterleaving options start steps) :
    StaysShut options start steps ↔ ¬HasEarlySuccess options (steps.map Prod.snd) := by
  constructor
  · rintro stays ⟨first, time, second, split, opened, last, isLast, notPassed⟩
    obtain ⟨before, rest, rfl, rfl, splitRest⟩ := List.map_eq_append_iff.mp split
    obtain ⟨⟨caller, _⟩, rest, rfl, rfl, rfl⟩ := List.map_eq_cons_iff.mp splitRest
    have whole : before ++ (caller, .succeed time) :: rest = before ++ [(caller, .succeed time)] ++ rest := by
      simp
    rw [whole] at interleaved stays
    have shut := hasToStayShut_succeed opened isLast notPassed
    have refused := stays _ rest caller time rfl interleaved.of_append.ask_again (by simpa using shut)
    have closed : afterAll options ((before ++ [(caller, Operation.succeed time)]).map Prod.snd) =
        (afterAll options (before.map Prod.snd)).succeed := by
      rw [List.map_append, List.map_singleton, afterAll_concat]
      rfl
    rw [closed, ask_of_not_opened (by simp [Breaker.succeed])] at refused
    cases refused
  · rintro onTime before rest caller now rfl - shut
    have earlier : ¬HasEarlySuccess options (before.map Prod.snd) := by
      rintro ⟨first, time, second, split, early⟩
      exact onTime ⟨first, time, second ++ rest.map Prod.snd, by simp [split], early⟩
    obtain ⟨opened, notPassed⟩ := opened_of_hasToStayShut earlier shut
    rw [ask_of_opened opened, notPassed]
    rfl

/-- Three callers are admitted at once. A failure that is reported late keeps the breaker shut, and the
success of a caller that it admits after the reset time closes it. -/
def overlapping : List (Fin 3 × Operation) :=
  [(0, .ask 0), (1, .ask 0), (2, .ask 0), (0, .fail 0.25), (1, .fail 0.5), (0, .ask 0.75),
    (2, .fail 1), (0, .ask 1.75), (1, .ask 2.25), (1, .succeed 2.5)]

theorem staysShut_iff_overlapping :
    IsInterleaving ⟨2, .int 1000⟩ 0 overlapping ∧ StaysShut ⟨2, .int 1000⟩ 0 overlapping := by
  have interleaved : IsInterleaving ⟨2, .int 1000⟩ 0 overlapping := by
    unfold IsInterleaving
    decide +kernel
  refine ⟨interleaved, (staysShut_iff interleaved).mpr ?_⟩
  rintro ⟨first, time, second, split, opened, -⟩
  have isBefore : first = (overlapping.map Prod.snd).take 9 := by
    simp [overlapping, List.cons_eq_append_iff] at split
    exact split.1
  subst isBefore
  revert opened
  decide +kernel

/-- Two callers are admitted at once; one of them fails, which opens the breaker, and then the other one
succeeds. -/
def lateSuccess : List (Fin 2 × Operation) :=
  [(0, .ask 0), (1, .ask 0), (0, .fail 0.5), (1, .succeed 0.75), (0, .ask 0.75)]

theorem not_staysShut_lateSuccess :
    IsInterleaving ⟨1, .int 1000⟩ 0 lateSuccess ∧ ¬StaysShut ⟨1, .int 1000⟩ 0 lateSuccess := by
  have interleaved : IsInterleaving ⟨1, .int 1000⟩ 0 lateSuccess := by
    unfold IsInterleaving
    decide +kernel
  refine ⟨interleaved, fun stays => ?_⟩
  have shut : HasToStayShut ⟨1, .int 1000⟩ ([.ask 0, .ask 0, .fail 0.5] ++ [.succeed 0.75]) 0.75 :=
    hasToStayShut_succeed (by decide +kernel)
      (rfl : lastFailure? [.ask 0, .ask 0, .fail 0.5] = some 0.5) (by decide +kernel)
  have refused := stays [(0, .ask 0), (1, .ask 0), (0, .fail 0.5), (1, .succeed 0.75)] [(0, .ask 0.75)] 0
    0.75 rfl interleaved shut
  revert refused
  decide +kernel

end Circuit

end GraphQuery
