import GraphQuery.Proofs.Resilience.Circuit

/-! # What a call does to the breakers that it shares

A call uses the breaker that its policy names. That breaker sees the attempts of the call, one step
after another, and no other breaker is touched. A call that is answered from the cache touches none.
-/

namespace GraphQuery

open Circuit

variable {Item : Type}

/-- Neither attempts nor sleeps turn the clock back. -/
structure Backend.KeepsTime (backend : Backend Item) : Prop where
  call : ∀ number now, now ≤ now → now ≤ (backend.call number now).2
  sleep : ∀ seconds now, now ≤ now → now ≤ backend.sleep seconds now

theorem Backend.KeepsTime.le_of_call {backend : Backend Item} (keepsTime : backend.KeepsTime) {number : Nat}
    {attempt : Attempt Item} {clock after : Float} (called : backend.call number clock = (attempt, after))
    (isTime : clock ≤ clock) : clock ≤ after := by
  have le := keepsTime.call number clock isTime
  rwa [called] at le

namespace Policy

section Attempts

variable {policy : Policy} {options : BreakerOptions} {backend : Backend Item} {text : String}
  {delays : List Number} {number : Nat} {breaker : Option Breaker} {clock : Float}

theorem le_clock_attempts (keepsTime : backend.KeepsTime) (watch : Watch) (isTime : clock ≤ clock) :
    clock ≤ (policy.attempts options watch backend text delays number breaker clock).clock := by
  fun_induction Policy.attempts policy options watch backend text delays number breaker clock with
  | case1 => exact isTime
  | case2 _ _ _ _ _ _ _ _ _ _ called => exact keepsTime.le_of_call called isTime
  | case3 _ _ _ _ _ _ _ _ _ called => exact keepsTime.le_of_call called isTime
  | case4 _ _ _ _ _ _ _ _ _ called => exact keepsTime.le_of_call called isTime
  | case6 _ _ _ _ _ _ _ _ _ _ called => exact keepsTime.le_of_call called isTime
  | case5 _ _ _ _ _ _ _ _ after called _ _ _ _ _ _ _ seconds _ _ ih =>
    have attempted := keepsTime.le_of_call called isTime
    have slept := keepsTime.sleep seconds after (FloatForm.le_self_of_le attempted)
    exact FloatForm.le_trans attempted (FloatForm.le_trans slept (ih (FloatForm.le_self_of_le slept)))

private theorem step_of_refused {before : Breaker} {now : Float} {asked : Option Breaker}
    (answer : admission options clock (some before) = (true, asked)) (later : now ≤ clock) :
    ∃ next, asked = some next ∧ Step options before now (policy, .refused clock) next clock := by
  obtain ⟨refuses, rfl⟩ := Prod.mk.inj answer
  exact ⟨_, rfl, .refused later (Prod.ext refuses rfl)⟩

private theorem step_of_admitted (keepsTime : backend.KeepsTime) {before : Breaker} {now ended : Float}
    {refused : Bool} {asked : Option Breaker} {attempt : Attempt Item}
    (answer : admission options clock (some before) = (refused, asked)) (admits : ¬refused = true)
    (called : backend.call number clock = (attempt, ended)) (later : now ≤ clock) :
    ∃ next, asked = some next ∧ next.state ≠ .opened ∧ clock ≤ ended ∧
      Step options before now (policy, .attempted clock) next clock := by
  obtain ⟨answers, rfl⟩ := Prod.mk.inj answer
  have admitted : (before.ask options clock).1 = false := answers.trans (eq_false_of_ne_true admits)
  refine ⟨_, rfl, state_ask_of_admitted admitted, ?_, .attempted later (Prod.ext admitted rfl)⟩
  exact keepsTime.le_of_call called (FloatForm.le_self_of_le later)

/-- A breaker sees a row of attempts as steps. -/
theorem run_attempts (keepsTime : backend.KeepsTime) {before : Breaker} {now : Float}
    (has : breaker = some before) (later : now ≤ clock) :
    let progress := policy.attempts options .shared backend text delays number breaker clock
    ∃ after time, progress.breaker = some after ∧ time ≤ progress.clock ∧
      Run options before now (progress.events.map (policy, ·)) after time := by
  intro progress
  unfold progress
  clear progress
  revert before now
  fun_induction Policy.attempts policy options Watch.shared backend text delays number breaker clock with
  | case1 _ _ _ clock _ answer =>
    intro before now has later
    subst has
    obtain ⟨next, rfl, step⟩ := step_of_refused answer later
    exact ⟨next, clock, rfl, FloatForm.le_self_of_le later, .cons step (.nil _ _)⟩
  | case2 _ _ _ clock _ _ answer admits _ ended called =>
    intro before now has later
    subst has
    obtain ⟨next, rfl, admitted, le, step⟩ := step_of_admitted keepsTime answer admits called later
    refine ⟨next.succeed, ended, rfl, FloatForm.le_self_of_le le, ?_⟩
    exact .cons step (.cons (.succeeded le admitted) (.nil _ _))
  | case3 _ _ clock _ _ answer admits _ ended called _ _ counts =>
    intro before now has later
    subst has
    obtain ⟨next, rfl, -, le, step⟩ := step_of_admitted keepsTime answer admits called later
    refine ⟨next.fail options ended, ended, rfl, FloatForm.le_self_of_le le, ?_⟩
    exact .cons step (.cons (.failed le counts) (.nil _ _))
  | case4 _ _ clock _ _ answer admits _ ended called _ _ counts =>
    intro before now has later
    subst has
    obtain ⟨next, rfl, -, le, step⟩ := step_of_admitted keepsTime answer admits called later
    refine ⟨next.fail options ended, ended, rfl, FloatForm.le_self_of_le le, ?_⟩
    exact .cons step (.cons (.failed le counts) (.nil _ _))
  | case5 _ _ clock _ _ answer admits _ ended called _ _ counts _ _ _ _ seconds =>
    rename_i ih
    intro before now has later
    subst has
    obtain ⟨next, rfl, -, le, step⟩ := step_of_admitted keepsTime answer admits called later
    have slept := keepsTime.sleep seconds ended (FloatForm.le_self_of_le le)
    obtain ⟨after, time, has, before, steps⟩ := ih rfl slept
    refine ⟨after, time, has, before, ?_⟩
    exact .cons step (.cons (.failed le counts) (.cons (.unseen rfl) (.cons (.unseen rfl) steps)))
  | case6 _ _ _ clock _ _ answer admits _ ended called _ _ ignored =>
    intro before now has later
    subst has
    obtain ⟨next, rfl, -, le, step⟩ := step_of_admitted keepsTime answer admits called later
    refine ⟨next, ended, rfl, FloatForm.le_self_of_le le, ?_⟩
    exact .cons step (.cons (.passed le (eq_false_of_ne_true ignored)) (.nil _ _))

end Attempts

/-- Whether a policy names a breaker. The empty name stands for none. -/
def Uses (policy : Policy) (name : String) : Prop :=
  policy.breaker = name ∧ name ≠ ""

instance (policy : Policy) (name : String) : Decidable (policy.Uses name) :=
  inferInstanceAs (Decidable (_ ∧ _))

variable {policy : Policy} {backend : Backend Item} {text : String} {guard : Guard Item}
  {registry : Registry}

theorem registry_remember (policy : Policy) (item : Item) (guard : Guard Item) :
    (policy.remember item guard).registry = guard.registry ∧
      (policy.remember item guard).clock = guard.clock := by
  unfold remember
  split <;> exact ⟨rfl, rfl⟩

theorem remember_toOption (policy : Policy) (result : Except Fault Item) (guard : Guard Item) :
    ((result.toOption.map (policy.remember · guard)).getD guard).registry = guard.registry ∧
      ((result.toOption.map (policy.remember · guard)).getD guard).clock = guard.clock := by
  cases result with
  | error fault => exact ⟨rfl, rfl⟩
  | ok item => exact registry_remember policy item guard

theorem registry_cached (policy : Policy) (guard : Guard Item) :
    (policy.cached guard).2.registry = guard.registry ∧ (policy.cached guard).2.clock = guard.clock := by
  unfold cached
  split
  · exact ⟨rfl, rfl⟩
  · split <;> exact ⟨rfl, rfl⟩

/-- What a call does to the breakers that it shares: its own breaker sees its events as steps, the
others are left as they are. -/
structure Affects (policy : Policy) (events : List PolicyEvent) (clock : Float)
    (after : Guard Item) (registry left : Registry) : Prop where
  kept : after.registry = some left
  options_eq : left.options = registry.options
  le_clock : clock ≤ after.clock
  others : ∀ name, ¬policy.Uses name → Assoc.get? name left.breakers = Assoc.get? name registry.breakers
  own : ∀ name now, policy.Uses name → now ≤ clock → ∃ time, time ≤ after.clock ∧
    Run registry.options (registry.get name) now (events.map (policy, ·)) (left.get name) time

variable {events : List PolicyEvent} {clock : Float} {after : Guard Item}

private theorem affects_of_unseen (isTime : clock ≤ clock) (unseen : ∀ event ∈ events, event.isUnseen = true)
    (kept : after.registry = some registry) (sameClock : after.clock = clock) :
    policy.Affects events clock after registry registry where
  kept := kept
  options_eq := rfl
  le_clock := sameClock ▸ isTime
  others _ _ := rfl
  own name now _ later := by
    refine ⟨now, sameClock ▸ later, ?_⟩
    induction events with
    | nil => exact .nil _ _
    | cons event rest ih =>
      exact .cons (.unseen (unseen event (List.mem_cons_self ..)))
        (ih fun event among => unseen event (List.mem_cons_of_mem _ among))

private theorem affects_of_unnamed (unnamed : policy.breaker = "") (kept : after.registry = some registry)
    (le : clock ≤ after.clock) : policy.Affects events clock after registry registry where
  kept := kept
  options_eq := rfl
  le_clock := le
  others _ _ := rfl
  own _ _ uses := absurd (uses.1.symm.trans unnamed) uses.2

private theorem affects_of_named {breaker : Breaker} (named : policy.breaker ≠ "")
    (kept : after.registry = some (registry.put policy.breaker breaker)) (le : clock ≤ after.clock)
    (run : ∀ now, now ≤ clock → ∃ time, time ≤ after.clock ∧
      Run registry.options (registry.get policy.breaker) now (events.map (policy, ·)) breaker time) :
    policy.Affects events clock after registry (registry.put policy.breaker breaker) where
  kept := kept
  options_eq := rfl
  le_clock := le
  others name unused := by
    refine Assoc.get?_put_of_ne ?_ _ _
    rintro rfl
    exact unused ⟨rfl, named⟩
  own name now uses later := by
    obtain ⟨rfl, -⟩ := uses
    rw [Registry.get_put_self]
    exact run now later

private theorem registry_keepBreaker (policy : Policy) (breaker : Breaker)
    (kept : guard.registry = some registry) :
    (policy.keepBreaker (some breaker) guard).registry = some (registry.put policy.breaker breaker) := by
  rw [keepBreaker, kept, Option.map_some]

private theorem breaker_attempts_none (policy : Policy) (options : BreakerOptions) (watch : Watch)
    (backend : Backend Item) (text : String) (delays : List Number) (number : Nat) (clock : Float) :
    (policy.attempts options watch backend text delays number Option.none clock).breaker = Option.none := by
  generalize none : (Option.none : Option Breaker) = breaker
  fun_induction Policy.attempts policy options watch backend text delays number breaker clock with
  | case1 _ _ _ _ _ answer =>
    subst none
    exact (Prod.mk.inj answer).2.symm
  | case2 _ _ _ _ _ _ answer | case6 _ _ _ _ _ _ answer =>
    subst none
    obtain ⟨-, rfl⟩ := Prod.mk.inj answer
    rfl
  | case3 _ _ _ _ _ answer | case4 _ _ _ _ _ answer =>
    subst none
    obtain ⟨-, rfl⟩ := Prod.mk.inj answer
    rfl
  | case5 _ _ _ _ _ answer =>
    rename_i ih
    subst none
    obtain ⟨-, rfl⟩ := Prod.mk.inj answer
    exact ih rfl

private theorem Affects.congr {other : Guard Item} {left : Registry}
    (affects : policy.Affects events clock after registry left)
    (sameRegistry : other.registry = after.registry) (sameClock : other.clock = after.clock) :
    policy.Affects events clock other registry left where
  kept := sameRegistry.trans affects.kept
  options_eq := affects.options_eq
  le_clock := sameClock ▸ affects.le_clock
  others := affects.others
  own := sameClock ▸ affects.own

private theorem affects_attempts (policy : Policy) (text : String) (keepsTime : backend.KeepsTime)
    (isTime : guard.clock ≤ guard.clock)
    (shared : guard.registry = some registry) (delays : List Number) :
    let progress := policy.attempts registry.options .shared backend text delays 0
      (if policy.breaker = "" then Option.none else some (registry.get policy.breaker)) guard.clock
    ∃ left, policy.Affects progress.events guard.clock
      (policy.keepBreaker progress.breaker { guard with clock := progress.clock }) registry left := by
  intro progress
  have le : guard.clock ≤ progress.clock := le_clock_attempts keepsTime .shared isTime
  by_cases unnamed : policy.breaker = ""
  · have none : progress.breaker = Option.none := by
      unfold progress
      rw [if_pos unnamed]
      apply breaker_attempts_none
    rw [none]
    exact ⟨registry, affects_of_unnamed unnamed shared le⟩
  · have run : ∀ now, now ≤ guard.clock → ∃ after time, progress.breaker = some after ∧
        time ≤ progress.clock ∧
        Run registry.options (registry.get policy.breaker) now (progress.events.map (policy, ·)) after time :=
      fun now later => run_attempts keepsTime (if_neg unnamed) later
    obtain ⟨breaker, _, has, -⟩ := run guard.clock isTime
    rw [has]
    refine ⟨_, affects_of_named unnamed (registry_keepBreaker policy breaker shared) le ?_⟩
    intro now later
    obtain ⟨breaker', time, has', before, steps⟩ := run now later
    obtain rfl := Option.some.inj (has.symm.trans has')
    exact ⟨time, before, steps⟩

/-- The attempts of a call, once its key was looked up and its delays are known. -/
def attemptsOf (policy : Policy) (backend : Backend Item) (text : String) (looked : Guard Item)
    (delays : List Number) : Progress Item :=
  policy.attempts (registryOf looked).options
    (if looked.registry.isSome then Watch.shared else backend.watch) backend text delays 0
    (if policy.breaker = "" then Option.none else some ((registryOf looked).get policy.breaker)) looked.clock

/-- A call that makes attempts ends as they do. -/
theorem execute_of_delays {looked : Guard Item} {delays : List Number}
    (missed : policy.cached guard = (Option.none, looked)) (listed : policy.delays = .ok delays)
    (backend : Backend Item) (text : String) :
    let progress := policy.attemptsOf backend text looked delays
    let kept := policy.keepBreaker progress.breaker { looked with clock := progress.clock }
    policy.execute backend text guard =
      (progress.result, (progress.result.toOption.map (policy.remember · kept)).getD kept,
        progress.events) := by
  simp only [execute, missed, listed, attemptsOf]
  generalize policy.attempts (registryOf looked).options _ backend text delays 0 _ looked.clock = progress
  obtain ⟨_ | item, breaker, clock, events⟩ := progress <;> rfl

/-- What a call with shared breakers comes to: an answer from the cache, a schedule that cannot be
kept, or a row of attempts. -/
theorem execute_cases (policy : Policy) (backend : Backend Item) (text : String)
    (shared : guard.registry = some registry) :
    let breaker := if policy.breaker = "" then Option.none else some (registry.get policy.breaker)
    ∃ looked : Guard Item, looked.registry = some registry ∧ looked.clock = guard.clock ∧
      ((∃ item, policy.cached guard = (some item, looked) ∧
          policy.execute backend text guard =
            (.ok item, looked, [.answeredFromCache policy.key])) ∨
        (∃ fault, policy.cached guard = (Option.none, looked) ∧ policy.delays = .error fault ∧
          policy.execute backend text guard =
            (.error fault, policy.keepBreaker breaker looked, [])) ∨
        ∃ delays, policy.cached guard = (Option.none, looked) ∧ policy.delays = .ok delays ∧
          let progress :=
            policy.attempts registry.options .shared backend text delays 0 breaker guard.clock
          let kept := policy.keepBreaker progress.breaker { looked with clock := progress.clock }
          policy.execute backend text guard =
            (progress.result, (progress.result.toOption.map (policy.remember · kept)).getD kept,
              progress.events)) := by
  have same := registry_cached policy guard
  rcases found : policy.cached guard with ⟨_ | item, looked⟩ <;> rw [found] at same
  · have sameShared : looked.registry = some registry := same.1.trans shared
    refine ⟨looked, sameShared, same.2, .inr ?_⟩
    have registryOf_eq : registryOf looked = registry := by
      rw [registryOf, sameShared, Option.getD_some]
    have watch_eq : (if looked.registry.isSome = true then Watch.shared else backend.watch) = .shared := by
      rw [sameShared]
      rfl
    have clock_eq : looked.clock = guard.clock := same.2
    cases listed : policy.delays with
    | error fault =>
      refine .inl ⟨fault, rfl, rfl, ?_⟩
      simp only [execute, found, listed, registryOf_eq]
    | ok delays =>
      refine .inr ⟨delays, rfl, rfl, ?_⟩
      rw [execute_of_delays found listed, attemptsOf, registryOf_eq, watch_eq, clock_eq]
  · refine ⟨looked, same.1.trans shared, same.2, .inl ⟨item, rfl, ?_⟩⟩
    simp only [execute, found]

/-- A call affects only its own breaker, which sees the events of the call. -/
theorem affects_execute (policy : Policy) (text : String) (guard : Guard Item)
    (keepsTime : backend.KeepsTime) (isTime : guard.clock ≤ guard.clock)
    (shared : guard.registry = some registry) :
    let outcome := policy.execute backend text guard
    ∃ left, policy.Affects outcome.2.2 guard.clock outcome.2.1 registry left := by
  obtain ⟨looked, sameShared, sameClock, cases⟩ := execute_cases policy backend text shared
  rcases cases with ⟨item, -, outcome⟩ | ⟨fault, -, -, outcome⟩ | ⟨delays, -, -, outcome⟩ <;>
    rw [outcome]
  · exact ⟨registry, affects_of_unseen isTime (by simp [PolicyEvent.isUnseen]) sameShared sameClock⟩
  · by_cases unnamed : policy.breaker = ""
    · rw [if_pos unnamed]
      exact ⟨registry, affects_of_unseen isTime (by simp) sameShared sameClock⟩
    · rw [if_neg unnamed]
      exact ⟨_, affects_of_named unnamed (registry_keepBreaker policy _ sameShared) (sameClock ▸ isTime)
        fun now later => ⟨now, sameClock ▸ later, .nil _ _⟩⟩
  · have lookedIsTime : looked.clock ≤ looked.clock := sameClock ▸ isTime
    have affected := affects_attempts policy text keepsTime lookedIsTime sameShared delays
    rw [sameClock] at affected
    obtain ⟨left, affected⟩ := affected
    exact ⟨left, affected.congr (remember_toOption policy _ _).1 (remember_toOption policy _ _).2⟩

/-- A call that its breaker refuses raises the fault of an open circuit. -/
theorem result_attempts_of_refused {options : BreakerOptions} {watch : Watch} {delays : List Number}
    {number : Nat} {breaker : Option Breaker} {asked : Float}
    (refused : .refused asked ∈
      (policy.attempts options watch backend text delays number breaker clock).events) :
    (policy.attempts options watch backend text delays number breaker clock).result =
      .error (.circuitOpen policy.breaker) := by
  fun_induction Policy.attempts policy options watch backend text delays number breaker clock with
  | case1 => rfl
  | case2 | case6 => simp at refused
  | case3 _ _ _ _ _ _ _ _ _ _ _ _ _ _ ended => simp [ended] at refused
  | case4 _ _ _ _ _ _ _ _ _ _ _ _ _ _ ended => simp [ended] at refused
  | case5 _ _ _ _ _ _ _ _ _ _ _ _ _ _ ended _ _ _ _ _ ih =>
    simp only [ended, List.cons_append, List.nil_append, List.mem_cons, reduceCtorEq, false_or] at refused
    exact ih refused

theorem result_of_refused {asked : Float} (shared : guard.registry = some registry)
    (refused : .refused asked ∈ (policy.execute backend text guard).2.2) :
    (policy.execute backend text guard).1 = .error (.circuitOpen policy.breaker) := by
  obtain ⟨looked, -, -, cases⟩ := execute_cases policy backend text shared
  rcases cases with ⟨item, -, outcome⟩ | ⟨fault, -, -, outcome⟩ | ⟨delays, -, -, outcome⟩ <;>
    rw [outcome] at refused ⊢
  · simp at refused
  · simp at refused
  · exact result_attempts_of_refused refused

/-- An answer from the cache leaves the breakers as they are. -/
theorem registry_execute_of_answered (answered : (policy.cached guard).1.isSome = true) :
    (policy.execute backend text guard).2.1.registry = guard.registry := by
  have same := (registry_cached policy guard).1
  rcases found : policy.cached guard with ⟨_ | item, looked⟩ <;> rw [found] at answered same
  · cases answered
  · simp only [execute, found]
    exact same

end Policy

end GraphQuery
