import GraphQuery.Proofs.Resilience.Execution
import GraphQuery.Proofs.Resilience.Operation

/-! # How a call is retried

A row of attempts goes on while every attempt fails in a way that is retried. `AttemptRow` says what
the attempts of a row would be if it went on for ever: when they begin and end, how they end and what
the breaker is told. `AttemptRow.Ends` says after which of them a row stops, with which result, and
what has happened until then.

How an attempt ends is judged in two ways. `Policy.ownResult` takes what the backend gives, and only
an attempt that is late has no result of its own, and one that cannot be waited for. `Policy.resultOf`
also takes a time-out that the backend reports under a time limit for a late attempt, so that another
fault is raised, and perhaps retried.
-/

namespace GraphQuery

open Circuit

variable {Item : Type}

/-- The end of a row of attempts, behind events that have happened before. -/
def Progress.behind (events : List PolicyEvent) (progress : Progress Item) : Progress Item :=
  { progress with events := events ++ progress.events }

theorem Progress.behind_nil (progress : Progress Item) : progress.behind [] = progress := rfl

theorem Progress.behind_behind (first second : List PolicyEvent) (progress : Progress Item) :
    (progress.behind second).behind first = progress.behind (first ++ second) := by
  rw [behind, behind, behind, List.append_assoc]

/-- How the ends of attempts are judged, of those that are still running when their results are asked
for and of the others. -/
abbrev Judgement (Item : Type) :=
  Bool → Attempt Item → Except Fault Item

/-- What a row of attempts is made of. Its breaker sees times of its own. -/
structure AttemptRow (Item : Type) where
  policy : Policy
  options : BreakerOptions
  watch : Watch
  backend : Backend Item
  text : String
  delays : List Number
  breaker : Option Breaker
  start : Float

namespace AttemptRow

variable (row : AttemptRow Item) (judge : Judgement Item)

def delay? (number : Nat) : Option Number :=
  row.delays[number]?

/-- The seconds of the sleep after an attempt. -/
def seconds (number : Nat) : Float :=
  ((row.delay? number).bind (Number.overPowerOfTen? 3)).getD 0

/-- The time at which an attempt begins, behind the sleep after the attempt before it. -/
def beginning : (number : Nat) → Float
  | 0 => row.start
  | number + 1 =>
    row.backend.sleep (row.seconds number) (row.backend.call number (beginning number)).2

def ending (number : Nat) : Float :=
  (row.backend.call number (row.beginning number)).2

/-- The time that the breaker sees before an attempt. -/
def askedAt (number : Nat) : Float :=
  row.watch.before number (row.beginning number)

/-- The time that the breaker sees behind an attempt. -/
def toldAt (number : Nat) : Float :=
  row.watch.behind number (row.ending number)

/-- How an attempt ends, by a judgement. -/
def outcome (number : Nat) : Except Fault Item :=
  judge (row.backend.isAwaited number) (row.backend.call number (row.beginning number)).1

/-- What the breaker is told about the attempts before an attempt: it is asked before each of them and
told once of the failure of each. -/
def tellings (number : Nat) : List Operation :=
  (List.range number).flatMap fun earlier =>
    [.ask (row.askedAt earlier), .fail (row.toldAt earlier)]

/-- What it is told up to the question before an attempt. -/
def asking (number : Nat) : List Operation :=
  row.tellings number ++ [.ask (row.askedAt number)]

/-- The breaker after it was told something. -/
def told (operations : List Operation) : Option Breaker :=
  row.breaker.map fun breaker => operations.foldl (Operation.apply row.options) breaker

/-- Whether there is a breaker that refuses an attempt. -/
def refuses (number : Nat) : Bool :=
  ((row.told (row.tellings number)).map fun breaker =>
    (breaker.ask row.options (row.askedAt number)).1).getD false

/-- What happens during an attempt that fails and is retried, and during the one sleep behind it. -/
def retryEvents (number : Nat) : List PolicyEvent :=
  match row.outcome judge number, row.delay? number with
  | .error fault, some delay =>
    [.attempted (row.beginning number), .failed (row.ending number) fault,
      .retrying (number + 1) fault delay, .slept (row.seconds number)]
  | _, _ => []

def eventsBefore (number : Nat) : List PolicyEvent :=
  (List.range number).flatMap (row.retryEvents judge)

/-- An attempt is admitted, fails in a way that is retried, and there is a delay behind it. -/
def IsRetried (number : Nat) : Prop :=
  row.refuses number = false ∧
    ∃ fault, row.outcome judge number = .error fault ∧ row.policy.isRetried fault = true ∧
      ∃ delay, row.delay? number = some delay ∧ (delay.overPowerOfTen? 3).isSome = true

/-- How a row of attempts ends: the number of attempts that were made, and what has come of them. All
attempts but the last one of them were retried, or all if the breaker refuses another one. -/
inductive Ends : (calls : Nat) → Progress Item → Prop where
  /-- An attempt succeeds. -/
  | returned {number : Nat} {item : Item} (retried : ∀ earlier < number, row.IsRetried judge earlier)
      (admitted : row.refuses number = false) (succeeded : row.outcome judge number = .ok item) :
      Ends (number + 1) ⟨.ok item,
        row.told (row.asking number ++ [.succeed (row.toldAt number)]),
        row.ending number, row.eventsBefore judge number ++
          [.attempted (row.beginning number), .succeeded (row.ending number)]⟩
  /-- An attempt fails in a way that is not retried. The breaker is not told of it. -/
  | raised {number : Nat} {fault : Fault} (retried : ∀ earlier < number, row.IsRetried judge earlier)
      (admitted : row.refuses number = false) (failed : row.outcome judge number = .error fault)
      (final : row.policy.isRetried fault = false) :
      Ends (number + 1) ⟨.error fault,
        row.told (row.asking number),
        row.ending number, row.eventsBefore judge number ++
          [.attempted (row.beginning number), .failed (row.ending number) fault]⟩
  /-- The attempt behind the last delay fails. -/
  | exhausted {fault : Fault} (retried : ∀ earlier < row.delays.length, row.IsRetried judge earlier)
      (admitted : row.refuses row.delays.length = false)
      (failed : row.outcome judge row.delays.length = .error fault)
      (counts : row.policy.isRetried fault = true) :
      Ends (row.delays.length + 1) ⟨.error fault, row.told (row.tellings (row.delays.length + 1)),
        row.ending row.delays.length, row.eventsBefore judge row.delays.length ++
          [.attempted (row.beginning row.delays.length), .failed (row.ending row.delays.length) fault]⟩
  /-- The breaker refuses an attempt. -/
  | refused {number : Nat} (retried : ∀ earlier < number, row.IsRetried judge earlier)
      (refuses : row.refuses number = true) :
      Ends number ⟨.error (.circuitOpen row.policy.breaker),
        row.told (row.asking number),
        row.beginning number, row.eventsBefore judge number ++ [.refused (row.beginning number)]⟩
  /-- An attempt fails, but the delay behind it is an integer beyond the range of floats. -/
  | tooLong {number : Nat} {fault : Fault} {delay : Number}
      (retried : ∀ earlier < number, row.IsRetried judge earlier)
      (admitted : row.refuses number = false) (failed : row.outcome judge number = .error fault)
      (counts : row.policy.isRetried fault = true) (isNext : row.delay? number = some delay)
      (beyond : delay.overPowerOfTen? 3 = none) :
      Ends (number + 1) ⟨.error .tooLargeForFloat, row.told (row.tellings (number + 1)),
        row.ending number, row.eventsBefore judge number ++
          [.attempted (row.beginning number), .failed (row.ending number) fault]⟩

/-- What comes of a row of attempts. -/
def progress : Progress Item :=
  row.policy.attempts row.options row.watch row.backend row.text row.delays 0 row.breaker row.start

variable {row judge} {number calls : Nat} {progress : Progress Item}

/-! ## What a breaker is told -/

theorem told_append (operations : List Operation) (operation : Operation) :
    row.told (operations ++ [operation]) =
      (row.told operations).map fun breaker => operation.apply row.options breaker := by
  simp [told, List.foldl_append, Function.comp_def]

theorem tellings_succ (number : Nat) :
    row.tellings (number + 1) = row.asking number ++ [.fail (row.toldAt number)] := by
  simp [tellings, asking, List.range_succ]

theorem eventsBefore_succ (number : Nat) :
    row.eventsBefore judge (number + 1) = row.eventsBefore judge number ++ row.retryEvents judge number := by
  simp [eventsBefore, List.range_succ]

/-- The answer of the breaker before an attempt, and the breaker after it was asked. -/
theorem admission_told (number : Nat) :
    Policy.admission row.options (row.askedAt number) (row.told (row.tellings number)) =
      (row.refuses number, row.told (row.asking number)) := by
  rw [asking, told_append, refuses]
  cases row.told (row.tellings number) <;> rfl

theorem map_succeed_told (number : Nat) :
    (row.told (row.asking number)).map Breaker.succeed =
      row.told (row.asking number ++ [.succeed (row.toldAt number)]) := by
  rw [told_append]
  rfl

theorem map_fail_told (number : Nat) :
    (row.told (row.asking number)).map (Breaker.fail row.options (row.toldAt number)) =
      row.told (row.tellings (number + 1)) := by
  rw [tellings_succ, told_append]
  rfl

/-! ## How a row ends -/

/-- There is a delay behind every attempt that is retried. -/
theorem le_length_of_isRetried (retried : ∀ earlier < number, row.IsRetried judge earlier) :
    number ≤ row.delays.length := by
  cases number with
  | zero => exact Nat.zero_le _
  | succ number =>
    obtain ⟨-, _, -, -, delay, isNext, -⟩ := retried number (Nat.lt_succ_self _)
    exact (List.getElem?_eq_some_iff.mp isNext).1

/-- There is at most one attempt more than there are delays. -/
theorem Ends.calls_le (ends : row.Ends judge calls progress) : calls ≤ row.delays.length + 1 := by
  cases ends with
  | returned retried | raised retried => exact Nat.succ_le_succ (le_length_of_isRetried retried)
  | tooLong retried => exact Nat.succ_le_succ (le_length_of_isRetried retried)
  | refused retried => exact (le_length_of_isRetried retried).trans (Nat.le_succ _)
  | exhausted => exact le_rfl

/-- All attempts that are made but the last one were retried. -/
theorem Ends.isRetried (ends : row.Ends judge calls progress) (earlier : number + 1 < calls) :
    row.IsRetried judge number := by
  cases ends with
  | returned retried | raised retried | tooLong retried => exact retried number (by omega)
  | refused retried => exact retried number (by omega)
  | exhausted retried => exact retried number (by omega)

private theorem count_retryEvents (retried : row.IsRetried judge number) :
    (row.retryEvents judge number).countP PolicyEvent.isAttempt = 1 := by
  obtain ⟨-, fault, failed, -, delay, isNext, -⟩ := retried
  rw [retryEvents, failed, isNext]
  rfl

private theorem count_eventsBefore (retried : ∀ earlier < number, row.IsRetried judge earlier) :
    (row.eventsBefore judge number).countP PolicyEvent.isAttempt = number := by
  induction number with
  | zero => rfl
  | succ number ih =>
    rw [eventsBefore_succ, List.countP_append, ih fun earlier less => retried earlier (by omega),
      count_retryEvents (retried number (Nat.lt_succ_self _))]

/-- Every attempt is one call of the backend. -/
theorem Ends.count_attempts (ends : row.Ends judge calls progress) :
    progress.events.countP PolicyEvent.isAttempt = calls := by
  cases ends with
  | returned retried | raised retried | tooLong retried | refused retried | exhausted retried =>
    exact List.countP_append.trans (congrArg (· + _) (count_eventsBefore retried))

/-- Two judgements that agree on the attempts that were made see the same row. -/
theorem Ends.congr {other : Judgement Item} (ends : row.Ends judge calls progress)
    (same : ∀ number < calls, row.outcome other number = row.outcome judge number) :
    row.Ends other calls progress := by
  have isRetried {number : Nat} (less : number < calls) (retried : row.IsRetried judge number) :
      row.IsRetried other number := by
    rwa [IsRetried, same number less]
  have events (number : Nat) (le : number ≤ calls) :
      row.eventsBefore judge number = row.eventsBefore other number := by
    unfold eventsBefore
    refine List.flatMap_congr fun earlier among => ?_
    rw [retryEvents, retryEvents, same earlier ((List.mem_range.mp among).trans_le le)]
  cases ends with
  | returned retried admitted succeeded =>
    rw [events _ (Nat.le_succ _)]
    exact .returned (fun earlier less => isRetried (by omega) (retried earlier less)) admitted
      ((same _ (Nat.lt_succ_self _)).trans succeeded)
  | raised retried admitted failed final =>
    rw [events _ (Nat.le_succ _)]
    exact .raised (fun earlier less => isRetried (by omega) (retried earlier less)) admitted
      ((same _ (Nat.lt_succ_self _)).trans failed) final
  | exhausted retried admitted failed counts =>
    rw [events _ (Nat.le_succ _)]
    exact .exhausted (fun earlier less => isRetried (by omega) (retried earlier less)) admitted
      ((same _ (Nat.lt_succ_self _)).trans failed) counts
  | refused retried refuses =>
    rw [events _ le_rfl]
    exact .refused (fun earlier less => isRetried less (retried earlier less)) refuses
  | tooLong retried admitted failed counts isNext beyond =>
    rw [events _ (Nat.le_succ _)]
    exact .tooLong (fun earlier less => isRetried (by omega) (retried earlier less)) admitted
      ((same _ (Nat.lt_succ_self _)).trans failed) counts isNext beyond

private def progressFrom (row : AttemptRow Item) (number : Nat) : Progress Item :=
  row.policy.attempts row.options row.watch row.backend row.text (row.delays.drop number) number
    (row.told (row.tellings number)) (row.beginning number)

private theorem progressFrom_eq (number : Nat) :
    row.progressFrom number =
      if row.refuses number = true then
        ⟨.error (.circuitOpen row.policy.breaker),
          row.told (row.asking number),
          row.beginning number, [.refused (row.beginning number)]⟩
      else
        match row.outcome (row.policy.resultOf row.text) number with
        | .ok item =>
          ⟨.ok item, row.told (row.asking number ++ [.succeed (row.toldAt number)]),
            row.ending number, [.attempted (row.beginning number), .succeeded (row.ending number)]⟩
        | .error fault =>
          let ended : List PolicyEvent :=
            [.attempted (row.beginning number), .failed (row.ending number) fault]
          if row.policy.isRetried fault = true then
            match row.delay? number with
            | none =>
              ⟨.error fault, row.told (row.tellings (number + 1)), row.ending number, ended⟩
            | some delay =>
              match delay.overPowerOfTen? 3 with
              | none =>
                ⟨.error .tooLargeForFloat, row.told (row.tellings (number + 1)), row.ending number, ended⟩
              | some _ =>
                (row.progressFrom (number + 1)).behind (row.retryEvents (row.policy.resultOf row.text) number)
          else
            ⟨.error fault, row.told (row.asking number),
              row.ending number, ended⟩ := by
  have called : row.backend.call number (row.beginning number) =
      ((row.backend.call number (row.beginning number)).1, row.ending number) := rfl
  have judged : row.policy.resultOf row.text (row.backend.isAwaited number)
      (row.backend.call number (row.beginning number)).1 =
        row.outcome (row.policy.resultOf row.text) number := rfl
  have asked : row.watch.before number (row.beginning number) = row.askedAt number := rfl
  have told : row.watch.behind number (row.ending number) = row.toldAt number := rfl
  have next : row.delay? number = (row.delays.drop number).head? := by rw [delay?, List.head?_drop]
  rw [progressFrom, Policy.attempts, asked, admission_told, called]
  simp only [judged, told]
  split
  · rfl
  cases outcome : row.outcome (row.policy.resultOf row.text) number with
  | ok item => simp only [map_succeed_told]
  | error fault =>
    simp only [map_fail_told]
    split
    · rcases left : row.delays.drop number with _ | ⟨delay, rest⟩
      · rw [next, left]
        rfl
      · have isNext : row.delay? number = some delay := by rw [next, left, List.head?_cons]
        have later : row.delays.drop (number + 1) = rest := by
          rw [← List.tail_drop, left, List.tail_cons]
        rw [isNext]
        simp only
        cases short : delay.overPowerOfTen? 3 with
        | none => rfl
        | some seconds =>
          have slept : row.seconds number = seconds := by simp [AttemptRow.seconds, isNext, short]
          have begun : row.beginning (number + 1) = row.backend.sleep seconds (row.ending number) := by
            rw [beginning, slept, ending]
          rw [progressFrom, later, begun, Progress.behind, retryEvents, outcome, isNext, slept]
          rfl
    · rfl

private theorem exists_ends_progressFrom (number : Nat)
    (retried : ∀ earlier < number, row.IsRetried (row.policy.resultOf row.text) earlier) :
    ∃ calls, row.Ends (row.policy.resultOf row.text) calls
      ((row.progressFrom number).behind (row.eventsBefore (row.policy.resultOf row.text) number)) := by
  rw [progressFrom_eq]
  by_cases refuses : row.refuses number = true
  · rw [if_pos refuses]
    exact ⟨number, .refused retried refuses⟩
  rw [if_neg refuses]
  have admitted := eq_false_of_ne_true refuses
  cases outcome : row.outcome (row.policy.resultOf row.text) number with
  | ok item => exact ⟨number + 1, .returned retried admitted outcome⟩
  | error fault =>
    simp only
    by_cases counts : row.policy.isRetried fault = true
    · rw [if_pos counts]
      cases isNext : row.delay? number with
      | none =>
        have all := List.getElem?_eq_none_iff.mp isNext
        obtain rfl := le_antisymm (le_length_of_isRetried retried) all
        exact ⟨_, .exhausted retried admitted outcome counts⟩
      | some delay =>
        simp only
        cases short : delay.overPowerOfTen? 3 with
        | none => exact ⟨_, .tooLong retried admitted outcome counts isNext short⟩
        | some seconds =>
          have isRetried : row.IsRetried (row.policy.resultOf row.text) number :=
            ⟨admitted, fault, outcome, counts, delay, isNext, by rw [short, Option.isSome_some]⟩
          obtain ⟨calls, ends⟩ := exists_ends_progressFrom (number + 1)
            (Nat.forall_lt_succ_right.mpr ⟨retried, isRetried⟩)
          rw [eventsBefore_succ, ← Progress.behind_behind] at ends
          exact ⟨calls, ends⟩
    · rw [if_neg counts]
      exact ⟨_, .raised retried admitted outcome (eq_false_of_ne_true counts)⟩
termination_by row.delays.length - number
decreasing_by
  -- Every retry uses up a delay.
  have behind : number < row.delays.length := (List.getElem?_eq_some_iff.mp isNext).1
  omega

/-- Every row of attempts ends in one of the ways. -/
theorem exists_ends_progress (row : AttemptRow Item) :
    ∃ calls, row.Ends (row.policy.resultOf row.text) calls row.progress := by
  have whole : row.progressFrom 0 = row.progress := by
    rw [progressFrom, AttemptRow.progress, List.drop_zero, told, tellings, beginning]
    simp
  obtain ⟨calls, ends⟩ := row.exists_ends_progressFrom 0 (by simp)
  rw [whole, eventsBefore, List.range_zero, List.flatMap_nil, Progress.behind_nil] at ends
  exact ⟨calls, ends⟩

end AttemptRow

namespace Policy

/-! ## Calls -/

/-- The result of an attempt as its backend gives it. An attempt that is late has none, it counts as a
query that has timed out. One that cannot be waited for counts as a failure, whatever it comes to. -/
def ownResult (policy : Policy) (text : String) (awaited : Bool) (attempt : Attempt Item) :
    Except Fault Item :=
  match policy.waitFault? (awaited || attempt.isLate) with
  | some fault => .error fault
  | Option.none =>
    match attempt with
    | .answered item => .ok item
    | .failed fault => .error fault
    | .late => .error (.timedOut (policy.timeout.getD (.int 0)) (.text text))

/-- Whether an attempt that is not late is taken for late: it reports a time-out by itself under a time
limit. -/
def takesForLate (policy : Policy) : Attempt Item → Bool
  | .failed fault => policy.timeout.isSome && fault.isA .timeout
  | _ => false

/-- Only an attempt that is taken for late has another result than its own. -/
theorem resultOf_eq_ownResult {policy : Policy} {attempt : Attempt Item}
    (own : policy.takesForLate attempt = false) (text : String) (awaited : Bool) :
    policy.resultOf text awaited attempt = policy.ownResult text awaited attempt := by
  unfold resultOf ownResult
  cases policy.waitFault? (awaited || attempt.isLate) with
  | some fault => rfl
  | none =>
    cases attempt with
    | answered item => rfl
    | late => rfl
    | failed fault =>
      cases limited : policy.timeout with
      | none => rfl
      | some limit =>
        have other : fault.isA .timeout = false := by simpa [takesForLate, limited] using own
        simp only [other, Bool.false_eq_true, if_false]

/-- How many retries a policy allows. -/
def retryLimit (policy : Policy) : Nat :=
  (policy.retry.map fun schedule => schedule.maxRetries.toNat).getD 0

theorem length_delays {policy : Policy} {delays : List Number} (listed : policy.delays = .ok delays) :
    delays.length = policy.retryLimit := by
  unfold Policy.delays at listed
  split at listed
  · rename_i unscheduled
    obtain rfl := Except.ok.inj listed
    rw [retryLimit, unscheduled]
    rfl
  · rename_i schedule scheduled
    unfold RetrySchedule.delays at listed
    split at listed
    · rename_i found
      obtain rfl := Except.ok.inj listed
      rw [retryLimit, scheduled, RetrySchedule.length_delays? found]
      rfl
    · cases listed

def rowOf (policy : Policy) (backend : Backend Item) (text : String) (guard : Guard Item)
    (delays : List Number) : AttemptRow Item where
  policy := policy
  options := (registryOf guard).options
  watch := if guard.registry.isSome then .shared else backend.watch
  backend := backend
  text := text
  delays := delays
  breaker := if policy.breaker = "" then Option.none else some ((registryOf guard).get policy.breaker)
  start := guard.clock

/-- A call that is not answered from the cache makes a number of attempts and ends as its row of attempts
does, by a judgement of the attempts. -/
structure Retries (policy : Policy) (judge : Judgement Item) (backend : Backend Item)
    (text : String) (guard : Guard Item) (delays : List Number) (calls : Nat)
    (progress : Progress Item) : Prop where
  /-- The row of attempts ends after this number of them. -/
  ends : (policy.rowOf backend text guard delays).Ends judge calls progress
  /-- There is one delay for every retry that is allowed. -/
  length_eq : delays.length = policy.retryLimit
  /-- Beside the first attempt there are only as many as there may be retries. -/
  calls_le : calls ≤ policy.retryLimit + 1
  /-- The backend is called once for every attempt. -/
  count_attempts : (policy.execute backend text guard).2.2.countP PolicyEvent.isAttempt = calls
  /-- Every attempt but the last one was admitted, failed and was retried after its delay. -/
  isRetried : ∀ number, number + 1 < calls →
    (policy.rowOf backend text guard delays).IsRetried judge number
  /-- The call returns or raises what the row ends with. -/
  result_eq : (policy.execute backend text guard).1 = progress.result
  /-- Nothing else happens. -/
  events_eq : (policy.execute backend text guard).2.2 = progress.events
  /-- The breaker is kept as it was told, if breakers are shared. -/
  registry_eq : (policy.execute backend text guard).2.1.registry =
    (policy.keepBreaker progress.breaker guard).registry

variable {policy : Policy} {backend : Backend Item} {text : String} {guard : Guard Item}
  {delays : List Number}

private theorem registry_keepBreaker_congr {other : Guard Item} (policy : Policy) (breaker : Option Breaker)
    (same : other.registry = guard.registry) :
    (policy.keepBreaker breaker other).registry = (policy.keepBreaker breaker guard).registry := by
  cases breaker with
  | none => exact same
  | some breaker => exact congrArg (Option.map _) same

/-- What a call that is not answered from the cache comes to. -/
theorem execute_of_missed (missed : (policy.cached guard).1 = Option.none)
    (listed : policy.delays = .ok delays) :
    let progress := (policy.rowOf backend text guard delays).progress
    (policy.execute backend text guard).1 = progress.result ∧
      (policy.execute backend text guard).2.2 = progress.events ∧
      (policy.execute backend text guard).2.1.registry =
        (policy.keepBreaker progress.breaker guard).registry := by
  intro progress
  have same := registry_cached policy guard
  rcases found : policy.cached guard with ⟨_ | item, looked⟩ <;> rw [found] at missed same
  · obtain ⟨sameRegistry, sameClock⟩ := same
    have progress_eq : policy.attemptsOf backend text looked delays = progress := by
      have sameKept : registryOf looked = registryOf guard := by rw [registryOf, registryOf, sameRegistry]
      rw [attemptsOf, sameKept, sameRegistry, sameClock]
      rfl
    have kept : (policy.keepBreaker progress.breaker { looked with clock := progress.clock }).registry =
        (policy.keepBreaker progress.breaker guard).registry :=
      registry_keepBreaker_congr policy progress.breaker sameRegistry
    rw [execute_of_delays found listed, progress_eq]
    exact ⟨rfl, rfl, (remember_toOption policy progress.result _).1.trans kept⟩
  · cases missed

/-- A call ends as its row of attempts does. -/
theorem retries_of_ends {judge : Judgement Item} {calls : Nat}
    (missed : (policy.cached guard).1 = Option.none) (listed : policy.delays = .ok delays)
    (ends : (policy.rowOf backend text guard delays).Ends judge calls
      (policy.rowOf backend text guard delays).progress) :
    policy.Retries judge backend text guard delays calls
      (policy.rowOf backend text guard delays).progress where
  ends := ends
  length_eq := length_delays listed
  calls_le := length_delays listed ▸ ends.calls_le
  count_attempts := (execute_of_missed missed listed).2.1 ▸ ends.count_attempts
  isRetried _ earlier := ends.isRetried earlier
  result_eq := (execute_of_missed missed listed).1
  events_eq := (execute_of_missed missed listed).2.1
  registry_eq := (execute_of_missed missed listed).2.2

/-- A schedule that cannot be listed has a delay that is beyond the range of floats. -/
theorem fault_of_delays {fault : Fault} (unlisted : policy.delays = .error fault) :
    fault = .tooLargeForFloat := by
  unfold Policy.delays at unlisted
  split at unlisted
  · cases unlisted
  · unfold RetrySchedule.delays at unlisted
    split at unlisted
    · cases unlisted
    · exact (Except.error.inj unlisted).symm

/-- A backend that fails, is late, fails again and is then asked no more. -/
def failing : Backend Nat where
  call number now := (if number = 1 then .late else .failed (.plain .connection "m"), now + 0.5)
  sleep seconds now := now + seconds
  began _ := 0
  ended _ := 0
  isAwaited _ := true

/-- Three retries under a time limit and a breaker. -/
def persistent : Policy where
  timeout := some (.int 5000)
  retry := some ⟨.exponential, .int 100, 3⟩
  breaker := "db"
  key := ""
  retryOn := [.anything]

/-- A backend that fails whenever it is asked, a minute and a second apart. -/
def lasting : Backend Nat where
  call _ now := (.failed (.plain .connection "m"), now + 61)
  sleep _ now := now
  began number := 61 * Float.ofNat number
  ended number := 61 * Float.ofNat number
  isAwaited _ := true

/-- A policy that retries lost connections, and nothing else, under a breaker. -/
def selective : Policy where
  timeout := Option.none
  retry := Option.none
  breaker := "db"
  key := ""
  retryOn := [.connection]

/-- A backend that rejects whatever it is asked. -/
def rejecting : Backend Nat where
  call _ now := (.failed (.plain .value "m"), now)
  sleep _ now := now
  began _ := 0
  ended _ := 0
  isAwaited _ := true

/-- A policy that retries time-outs, and nothing else. -/
def impatient : Policy where
  timeout := some (.int 5000)
  retry := some ⟨.fixed, .int 1, 1⟩
  breaker := ""
  key := ""
  retryOn := [.timeout]

/-- A backend that reports a time-out once and then answers. -/
def hesitant : Backend Nat where
  call number now := (if number = 0 then .failed (.plain .timeout "m") else .answered 7, now)
  sleep _ now := now
  began _ := 0
  ended _ := 0
  isAwaited _ := true

/-- A policy with a time limit that nothing can wait for, and a retry after a delay that is no number of
seconds. -/
def unhurried : Policy where
  timeout := some (.float Decimal.infinity)
  retry := some ⟨.fixed, .int (10 ^ 400), 1⟩
  breaker := ""
  key := ""
  retryOn := [.connection]

/-- The class of the fault that a call ends with, if it ends with one. -/
def faultClass? (result : Except Fault Item) : Option FaultClass :=
  match result with
  | .ok _ => Option.none
  | .error fault => some fault.cls

end Policy

end GraphQuery
