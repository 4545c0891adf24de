import GraphQuery.Proofs.Resilience.Cache
import GraphQuery.Proofs.Resilience.Calls

/-! # Repeated calls

Calls with one key stand for one request. Once such a call has returned a result, the others return
it again without doing anything, for as long as it is kept: whatever calls are made in between, and
whatever their breakers do. Nothing else is ever answered: the results in the cache are those of
successful calls, and a call that fails leaves none of its own.
-/

namespace GraphQuery

open TimedCache

variable {Item : Type}

namespace Policy

variable {policy : Policy} {backend : Backend Item} {text : String} {guard : Guard Item}
  {cache : TimedCache Item} {item : Item} {fault : Fault}

/-- The cache after the key of a call was looked up. -/
def lookedUp (policy : Policy) (now : Float) (cache : TimedCache Item) : TimedCache Item :=
  if policy.key = "" then cache else (cache.get? policy.key now).2

/-- The cache after the result of a call was stored under its key. -/
def stored (policy : Policy) (item : Item) (now : Float) (cache : TimedCache Item) : TimedCache Item :=
  if policy.key = "" then cache else cache.put policy.key item now

section Effects

variable {key : String} {result : Stored Item} {now time : Float}

theorem ttl_lookedUp (policy : Policy) (now : Float) (cache : TimedCache Item) :
    (policy.lookedUp now cache).ttl = cache.ttl := by
  unfold lookedUp
  split
  · rfl
  · exact ttl_get? ..

theorem isFilledBy_lookedUp (policy : Policy) (filled : cache.IsFilledBy now) :
    (policy.lookedUp now cache).IsFilledBy now := by
  unfold lookedUp
  split
  · exact filled
  · exact filled.get? ..

theorem live_lookedUp (filled : cache.IsFilledBy now) (later : now ≤ time) :
    live time (policy.lookedUp now cache) = live time cache := by
  unfold lookedUp
  split
  · rfl
  · exact live_get? filled later policy.key

theorem get?_lookedUp_of_kept (policy : Policy) (found : Assoc.get? key cache.entries = some result)
    (kept : hasPassed cache.ttl result.since now = false) :
    Assoc.get? key (policy.lookedUp now cache).entries = some result := by
  unfold lookedUp
  split
  · exact found
  · exact get?_get?_of_kept found kept policy.key

theorem mem_of_mem_lookedUp {entry : String × Stored Item}
    (member : entry ∈ (policy.lookedUp now cache).entries) : entry ∈ cache.entries := by
  unfold lookedUp at member
  split at member
  · exact member
  · exact mem_of_mem_get? member

theorem ttl_stored (policy : Policy) (item : Item) (now : Float) (cache : TimedCache Item) :
    (policy.stored item now cache).ttl = cache.ttl := by
  unfold stored
  split <;> rfl

theorem isFilledBy_stored (filled : cache.IsFilledBy now) (later : now ≤ time) :
    (policy.stored item time cache).IsFilledBy time := by
  unfold stored
  split
  · exact filled.wait later
  · exact filled.put later ..

theorem get?_stored_self (keyed : policy.key ≠ "") :
    Assoc.get? policy.key (policy.stored item now cache).entries = some ⟨now, item⟩ := by
  rw [stored, if_neg keyed]
  exact get?_put_self ..

theorem get?_stored_of_kept (found : Assoc.get? key cache.entries = some result)
    (kept : hasPassed cache.ttl result.since now = false) (different : key ≠ policy.key) :
    Assoc.get? key (policy.stored item now cache).entries = some result := by
  unfold stored
  split
  · exact found
  · exact get?_put_of_kept found kept different item

theorem eq_or_mem_of_mem_stored {entry : String × Stored Item}
    (member : entry ∈ (policy.stored item now cache).entries) :
    policy.key ≠ "" ∧ entry = (policy.key, ⟨now, item⟩) ∨ entry ∈ cache.entries := by
  unfold stored at member
  split at member
  · exact .inr member
  · rename_i keyed
    exact (TimedCache.eq_or_mem_of_mem_put member).imp (And.intro keyed) id

end Effects

theorem cached_eq (policy : Policy) (has : guard.cache = some cache) :
    policy.cached guard =
      (if policy.key = "" then Option.none else (cache.get? policy.key guard.clock).1,
        { guard with cache := some (policy.lookedUp guard.clock cache) }) := by
  obtain ⟨registry, _, clock⟩ := guard
  obtain rfl := has
  by_cases unkeyed : policy.key = ""
  · simp only [cached, lookedUp, if_pos unkeyed]
  · simp only [cached, lookedUp, if_neg unkeyed]

/-- A call whose key has a live result does nothing but return it. -/
theorem execute_of_kept {result : Stored Item} (has : guard.cache = some cache) (keyed : policy.key ≠ "")
    (found : Assoc.get? policy.key cache.entries = some result)
    (kept : hasPassed cache.ttl result.since guard.clock = false) (backend : Backend Item) (text : String) :
    policy.execute backend text guard = (.ok result.item, guard, [.answeredFromCache policy.key]) := by
  have hit : policy.cached guard = (some result.item, guard) := by
    rw [cached_eq policy has, lookedUp, if_neg keyed, if_neg keyed, get?_of_kept found kept, ← has]
  simp only [execute, hit]

theorem clock_keepBreaker (policy : Policy) (breaker : Option Breaker) (guard : Guard Item) :
    (policy.keepBreaker breaker guard).clock = guard.clock := by
  cases breaker <;> rfl

theorem cache_keepBreaker (policy : Policy) (breaker : Option Breaker) (guard : Guard Item) :
    (policy.keepBreaker breaker guard).cache = guard.cache := by
  cases breaker <;> rfl

theorem cache_remember (policy : Policy) (item : Item) (guard : Guard Item) :
    (policy.remember item guard).cache = guard.cache.map (policy.stored item guard.clock) := by
  obtain ⟨registry, cache, clock⟩ := guard
  by_cases unkeyed : policy.key = ""
  · have same : policy.stored item clock = id := funext fun _ => if_pos unkeyed
    rw [remember, if_pos unkeyed, same, Option.map_id, id]
  · have put : policy.stored item clock = (·.put policy.key item clock) := funext fun _ => if_neg unkeyed
    rw [remember, if_neg unkeyed, put]

/-- A row of attempts that ends in a result has made an attempt. -/
theorem exists_attempted_of_ok {options : BreakerOptions} {watch : Watch} {delays : List Number}
    {number : Nat} {breaker : Option Breaker} {clock : Float}
    (returned : (policy.attempts options watch backend text delays number breaker clock).result = .ok item) :
    ∃ begun, .attempted begun ∈
      (policy.attempts options watch backend text delays number breaker clock).events := by
  fun_induction Policy.attempts policy options watch backend text delays number breaker clock with
  | case1 | case3 | case4 | case6 => cases returned
  | case2 => exact ⟨_, List.mem_cons_self ..⟩
  | case5 => exact ⟨_, List.mem_cons_self ..⟩

/-- A call whose key has no live result ends with the progress that it made. It has no result without an
attempt. -/
theorem exists_execute_of_missed {looked : Guard Item} (missed : policy.cached guard = (Option.none, looked))
    (backend : Backend Item) (text : String) :
    ∃ progress : Progress Item,
      (∀ item, progress.result = .ok item → ∃ begun, .attempted begun ∈ progress.events) ∧
      (backend.KeepsTime → looked.clock ≤ looked.clock → looked.clock ≤ progress.clock) ∧
      let kept := policy.keepBreaker progress.breaker { looked with clock := progress.clock }
      policy.execute backend text guard =
        (progress.result, (progress.result.toOption.map (policy.remember · kept)).getD kept,
          progress.events) := by
  cases listed : policy.delays with
  | error fault =>
    let breaker := if policy.breaker = "" then Option.none else some ((registryOf looked).get policy.breaker)
    refine ⟨⟨.error fault, breaker, looked.clock, []⟩, by simp, fun _ => id, ?_⟩
    simp only [execute, missed, listed]
    rfl
  | ok delays =>
    exact ⟨policy.attemptsOf backend text looked delays, fun _ => exists_attempted_of_ok,
      fun keepsTime => le_clock_attempts keepsTime _, execute_of_delays missed listed backend text⟩

/-- What a call comes to, and what it leaves in the cache: it returns a live result, it fails, or it
attempts something and stores the result. -/
theorem cache_execute_cases (policy : Policy) (backend : Backend Item) (text : String)
    (has : guard.cache = some cache) :
    let outcome := policy.execute backend text guard
    (∃ item, policy.key ≠ "" ∧ (cache.get? policy.key guard.clock).1 = some item ∧
        outcome = (.ok item, guard, [.answeredFromCache policy.key])) ∨
      (policy.cached guard).1 = Option.none ∧
        ((∃ fault, outcome.1 = .error fault) ∧
            outcome.2.1.cache = some (policy.lookedUp guard.clock cache) ∨
          ∃ item, outcome.1 = .ok item ∧ (∃ begun, .attempted begun ∈ outcome.2.2) ∧
            outcome.2.1.cache =
              some (policy.stored item outcome.2.1.clock (policy.lookedUp guard.clock cache))) := by
  intro outcome
  unfold outcome
  rcases found : policy.cached guard with ⟨_ | item, looked⟩
  · have lookedCache : looked.cache = some (policy.lookedUp guard.clock cache) := by
      rw [← (Prod.mk.inj ((cached_eq policy has).symm.trans found)).2]
    obtain ⟨progress, attempted, -, ended⟩ := exists_execute_of_missed found backend text
    rw [ended]
    refine .inr ⟨rfl, ?_⟩
    cases result : progress.result with
    | error fault => exact .inl ⟨⟨fault, rfl⟩, (cache_keepBreaker ..).trans lookedCache⟩
    | ok item =>
      refine .inr ⟨item, rfl, attempted item result, ?_⟩
      simp only [Except.toOption, Option.map_some, Option.getD_some, cache_remember,
        (registry_remember policy item _).2, cache_keepBreaker, lookedCache]
  · have hit := congrArg Prod.fst ((cached_eq policy has).symm.trans found)
    by_cases keyed : policy.key = ""
    · rw [if_pos keyed] at hit
      cases hit
    · rw [if_neg keyed] at hit
      obtain ⟨result, foundIn, kept, rfl⟩ := exists_kept_of_get? hit
      exact .inl ⟨_, keyed, hit, execute_of_kept has keyed foundIn kept backend text⟩

/-- A call does not turn the clock back. -/
theorem le_clock_execute (policy : Policy) (text : String) (keepsTime : backend.KeepsTime)
    (isTime : guard.clock ≤ guard.clock) : guard.clock ≤ (policy.execute backend text guard).2.1.clock := by
  have same := (registry_cached policy guard).2
  rcases found : policy.cached guard with ⟨_ | item, looked⟩ <;> rw [found] at same
  · obtain ⟨progress, -, later, ended⟩ := exists_execute_of_missed found backend text
    have clock_eq : (policy.execute backend text guard).2.1.clock = progress.clock := by
      rw [ended]
      exact (remember_toOption policy progress.result _).2.trans (clock_keepBreaker ..)
    have le := later keepsTime (same ▸ isTime)
    rwa [clock_eq, ← same]
  · simp only [execute, found]
    exact same ▸ isTime

end Policy

/-! ## Caches over a run of calls -/

/-- What is stored under a key, live or not. -/
def Guard.stored? (key : String) (guard : Guard Item) : Option (Stored Item) :=
  guard.cache.bind fun cache => Assoc.get? key cache.entries

theorem Guard.stored?_eq {guard : Guard Item} {cache : TimedCache Item} (has : guard.cache = some cache)
    (key : String) : guard.stored? key = Assoc.get? key cache.entries := by
  rw [stored?, has, Option.bind_some]

/-- What is shared holds a cache that was filled in the past. -/
structure Guard.Keeps (guard : Guard Item) (ttl : Number) (cache : TimedCache Item) : Prop where
  cache_eq : guard.cache = some cache
  ttl_eq : cache.ttl = ttl
  filled : cache.IsFilledBy guard.clock
  isTime : guard.clock ≤ guard.clock

/-- The results that are live at a time, under their keys. -/
def Guard.live (time : Float) (guard : Guard Item) : List (String × Item) :=
  (guard.cache.map (TimedCache.live time)).getD []

/-- Whether a call made an attempt, so that its executor ran. -/
def MadeCall.Ran (call : MadeCall Item) : Prop :=
  ∃ begun, .attempted begun ∈ call.events

/-- Whether a call has computed what is stored under a key. -/
def MadeCall.Provides (call : MadeCall Item) (key : String) (result : Stored Item) : Prop :=
  call.Ran ∧ call.policy.key = key ∧ call.result = .ok result.item ∧ call.after.clock = result.since

namespace PlannedCall

variable {call : PlannedCall Item} {calls : List (PlannedCall Item)} {guard : Guard Item} {ttl : Number}
  {cache : TimedCache Item} {key : String} {result : Stored Item} {time : Float}

/-- What a call that is made comes to, and what it leaves in the cache. -/
theorem make_cases (call : PlannedCall Item) (has : guard.cache = some cache) :
    let made := call.make guard
    let looked := call.policy.lookedUp made.before.clock cache
    (∃ item, call.policy.key ≠ "" ∧ (cache.get? call.policy.key made.before.clock).1 = some item ∧
        made.result = .ok item ∧ made.after = made.before ∧
        made.events = [.answeredFromCache call.policy.key]) ∨
      made.isAnswered = false ∧
        ((∃ fault, made.result = .error fault) ∧ made.after.cache = some looked ∨
          ∃ item, made.result = .ok item ∧ made.Ran ∧
            made.after.cache = some (call.policy.stored item made.after.clock looked)) := by
  intro made looked
  have before : made.before.cache = some cache := has
  rcases Policy.cache_execute_cases call.policy call.backend call.text before with
    ⟨item, keyed, hit, outcome⟩ | ⟨missed, left⟩
  · obtain ⟨result, rest⟩ := Prod.mk.inj outcome
    obtain ⟨after, events⟩ := Prod.mk.inj rest
    exact .inl ⟨item, keyed, hit, result, after, events⟩
  · exact .inr ⟨Option.isSome_eq_false_iff.mpr (Option.isNone_iff_eq_none.mpr missed), left⟩

/-- Time goes on before a call is made. -/
theorem keeps_before (keepsTime : call.KeepsTime) (keeps : guard.Keeps ttl cache) :
    (call.make guard).before.Keeps ttl cache where
  cache_eq := keeps.cache_eq
  ttl_eq := keeps.ttl_eq
  filled := keeps.filled.wait (keepsTime.wait guard.clock keeps.isTime)
  isTime := FloatForm.le_self_of_le (keepsTime.wait guard.clock keeps.isTime)

theorem le_clock_after (keepsTime : call.KeepsTime) (keeps : guard.Keeps ttl cache) :
    (call.make guard).before.clock ≤ (call.make guard).after.clock :=
  Policy.le_clock_execute call.policy call.text keepsTime.backend (keeps_before keepsTime keeps).isTime

/-- A call leaves a cache that was filled in the past. -/
theorem exists_keeps_after (keepsTime : call.KeepsTime) (keeps : guard.Keeps ttl cache) :
    ∃ after, (call.make guard).after.Keeps ttl after := by
  have before := keeps_before keepsTime keeps
  have later := le_clock_after keepsTime keeps
  have isTime := FloatForm.le_self_of_le later
  have looked := Policy.isFilledBy_lookedUp call.policy before.filled
  have ttl_eq := (Policy.ttl_lookedUp call.policy (call.make guard).before.clock cache).trans before.ttl_eq
  rcases call.make_cases keeps.cache_eq with ⟨item, -, -, -, same, -⟩ | ⟨-, ⟨-, left⟩ | ⟨item, -, -, left⟩⟩
  · exact ⟨cache, same ▸ before⟩
  · exact ⟨_, left, ttl_eq, looked.wait later, isTime⟩
  · exact ⟨_, left, (Policy.ttl_stored ..).trans ttl_eq, Policy.isFilledBy_stored looked later, isTime⟩

/-- A call does not remove a result that is kept longer than the call takes. -/
theorem stored?_make (keepsTime : call.KeepsTime) (keeps : guard.Keeps ttl cache) (keyed : key ≠ "")
    (found : guard.stored? key = some result) (later : (call.make guard).after.clock ≤ time)
    (kept : hasPassed ttl result.since time = false) : (call.make guard).after.stored? key = some result := by
  have before := keeps_before keepsTime keeps
  have during := le_clock_after keepsTime keeps
  have inCache : Assoc.get? key cache.entries = some result := by
    rwa [Guard.stored?_eq keeps.cache_eq] at found
  have begun : result.since ≤ (call.make guard).before.clock :=
    before.filled.since_le (key, result) (Assoc.mem_of_get? inCache)
  have keptAfter := hasPassed_eq_false_of_le (FloatForm.le_trans begun during) later kept
  have keptBefore := hasPassed_eq_false_of_le begun during keptAfter
  rw [← keeps.ttl_eq] at keptAfter keptBefore
  have looked := Policy.get?_lookedUp_of_kept call.policy inCache keptBefore
  rcases call.make_cases keeps.cache_eq with
    ⟨item, -, -, -, same, -⟩ | ⟨missed, ⟨-, left⟩ | ⟨item, -, -, left⟩⟩
  · rwa [same, Guard.stored?_eq before.cache_eq]
  · rwa [Guard.stored?_eq left]
  · have different : key ≠ call.policy.key := by
      rintro rfl
      have answered := Policy.cached_eq call.policy before.cache_eq
      rw [if_neg keyed, get?_of_kept inCache keptBefore] at answered
      have hit : (call.make guard).isAnswered = true := congrArg (·.1.isSome) answered
      rw [missed] at hit
      cases hit
    rw [← Policy.ttl_lookedUp call.policy (call.make guard).before.clock cache] at keptAfter
    rw [Guard.stored?_eq left]
    exact Policy.get?_stored_of_kept looked keptAfter different

/-- A call whose key has a live result returns it and leaves everything as it is. -/
theorem make_of_kept (keeps : guard.Keeps ttl cache) (keyed : call.policy.key ≠ "")
    (found : guard.stored? call.policy.key = some result)
    (kept : hasPassed ttl result.since (call.make guard).before.clock = false) :
    (call.make guard).result = .ok result.item ∧
      (call.make guard).events = [.answeredFromCache call.policy.key] ∧
      (call.make guard).after = (call.make guard).before := by
  rw [Guard.stored?_eq keeps.cache_eq] at found
  rw [← keeps.ttl_eq] at kept
  have before : (call.make guard).before.cache = some cache := keeps.cache_eq
  have outcome := Policy.execute_of_kept before keyed found kept call.backend call.text
  exact ⟨congrArg (·.1) outcome, congrArg (·.2.2) outcome, congrArg (·.2.1) outcome⟩

/-- A call that ran and returned a result has stored it. -/
theorem stored?_make_self (has : guard.cache = some cache) {item : Item} (ran : (call.make guard).Ran)
    (returned : (call.make guard).result = .ok item) (keyed : call.policy.key ≠ "") :
    (call.make guard).after.stored? call.policy.key = some ⟨(call.make guard).after.clock, item⟩ := by
  rcases call.make_cases has with
    ⟨_, -, -, -, -, events⟩ | ⟨-, ⟨⟨fault, failed⟩, -⟩ | ⟨item', result, -, left⟩⟩
  · obtain ⟨begun, among⟩ := ran
    rw [events] at among
    simp at among
  · rw [failed] at returned
    cases returned
  · obtain rfl := Except.ok.inj (result.symm.trans returned)
    rw [Guard.stored?_eq left]
    exact Policy.get?_stored_self keyed

/-- A call that fails leaves the live results as they are. -/
theorem live_make_of_error (keepsTime : call.KeepsTime) (keeps : guard.Keeps ttl cache) {fault : Fault}
    (failed : (call.make guard).result = .error fault) (later : (call.make guard).before.clock ≤ time) :
    (call.make guard).after.live time = (call.make guard).before.live time := by
  have before := keeps_before keepsTime keeps
  rcases call.make_cases keeps.cache_eq with
    ⟨_, -, -, returned, -⟩ | ⟨-, ⟨-, left⟩ | ⟨_, returned, -⟩⟩
  · rw [returned] at failed
    cases failed
  · rw [Guard.live, Guard.live, left, before.cache_eq, Option.map_some, Option.map_some,
      Policy.live_lookedUp before.filled later]
  · rw [returned] at failed
    cases failed

/-- What is in the cache after a call was there before or is the result of the call. -/
theorem mem_or_provides_make {after : TimedCache Item} {entry : String × Stored Item}
    (has : guard.cache = some cache) (left : (call.make guard).after.cache = some after)
    (member : entry ∈ after.entries) :
    entry ∈ cache.entries ∨ (call.make guard).Provides entry.1 entry.2 := by
  have before : (call.make guard).before.cache = some cache := has
  rcases call.make_cases has with
    ⟨_, -, -, -, same, -⟩ | ⟨-, ⟨-, looked⟩ | ⟨item, returned, ran, kept⟩⟩
  · rw [same, before] at left
    obtain rfl := Option.some.inj left
    exact .inl member
  · obtain rfl := Option.some.inj (looked.symm.trans left)
    exact .inl (Policy.mem_of_mem_lookedUp member)
  · obtain rfl := Option.some.inj (kept.symm.trans left)
    rcases Policy.eq_or_mem_of_mem_stored member with ⟨-, rfl⟩ | member
    · exact .inr ⟨ran, rfl, returned, rfl⟩
    · exact .inl (Policy.mem_of_mem_lookedUp member)

/-- What is shared after calls made one after another. -/
def leave (calls : List (PlannedCall Item)) (guard : Guard Item) : Guard Item :=
  calls.foldl (fun guard call => (call.make guard).after) guard

/-- The calls of a part of a run are made with what the part before it left. -/
theorem exists_of_makeAll_eq_append {first second : List (MadeCall Item)}
    (split : makeAll calls guard = first ++ second) :
    ∃ before after, calls = before ++ after ∧ first = makeAll before guard ∧
      second = makeAll after (leave before guard) := by
  induction first generalizing calls guard with
  | nil => exact ⟨[], calls, rfl, rfl, split.symm⟩
  | cons made first ih =>
    cases calls with
    | nil => cases split
    | cons call rest =>
      obtain ⟨rfl, others⟩ := List.cons.inj split
      obtain ⟨before, after, rfl, rfl, rfl⟩ := ih others
      exact ⟨call :: before, after, rfl, rfl, rfl⟩

theorem exists_of_makeAll_eq_cons {made : MadeCall Item} {others : List (MadeCall Item)}
    (split : makeAll calls guard = made :: others) :
    ∃ call rest, calls = call :: rest ∧ made = call.make guard ∧ others = makeAll rest made.after := by
  cases calls with
  | nil => cases split
  | cons call rest =>
    obtain ⟨rfl, rfl⟩ := List.cons.inj split
    exact ⟨call, rest, rfl, rfl, rfl⟩

theorem exists_keeps_leave (keepsTime : ∀ call ∈ calls, call.KeepsTime) (keeps : guard.Keeps ttl cache) :
    (∃ after, (leave calls guard).Keeps ttl after) ∧ guard.clock ≤ (leave calls guard).clock := by
  induction calls generalizing guard cache with
  | nil => exact ⟨⟨cache, keeps⟩, keeps.isTime⟩
  | cons call rest ih =>
    obtain ⟨first, others⟩ := List.forall_mem_cons.mp keepsTime
    obtain ⟨after, keepsAfter⟩ := exists_keeps_after first keeps
    obtain ⟨left, later⟩ := ih others keepsAfter
    have waited : guard.clock ≤ (call.make guard).before.clock := first.wait guard.clock keeps.isTime
    have made : guard.clock ≤ (call.make guard).after.clock :=
      FloatForm.le_trans waited (le_clock_after first keeps)
    rw [leave, List.foldl_cons, ← leave]
    exact ⟨left, FloatForm.le_trans made later⟩

/-- Calls do not remove a result that is kept longer than they take. -/
theorem stored?_leave (keepsTime : ∀ call ∈ calls, call.KeepsTime) (keeps : guard.Keeps ttl cache)
    (keyed : key ≠ "") (found : guard.stored? key = some result) (later : (leave calls guard).clock ≤ time)
    (kept : hasPassed ttl result.since time = false) : (leave calls guard).stored? key = some result := by
  induction calls generalizing guard cache with
  | nil => exact found
  | cons call rest ih =>
    obtain ⟨first, others⟩ := List.forall_mem_cons.mp keepsTime
    obtain ⟨after, keepsAfter⟩ := exists_keeps_after first keeps
    have soon := FloatForm.le_trans (exists_keeps_leave others keepsAfter).2 later
    exact ih others keepsAfter (stored?_make first keeps keyed found soon kept) later

/-- Everything in the cache after calls was there before or is the result of one of the calls. -/
theorem mem_or_provides_leave (keepsTime : ∀ call ∈ calls, call.KeepsTime) (keeps : guard.Keeps ttl cache)
    {left : TimedCache Item} (after : (leave calls guard).cache = some left) {entry : String × Stored Item}
    (member : entry ∈ left.entries) :
    entry ∈ cache.entries ∨ ∃ source ∈ makeAll calls guard, source.Provides entry.1 entry.2 := by
  induction calls generalizing guard cache with
  | nil =>
    obtain rfl := Option.some.inj (keeps.cache_eq.symm.trans after)
    exact .inl member
  | cons call rest ih =>
    obtain ⟨first, others⟩ := List.forall_mem_cons.mp keepsTime
    obtain ⟨next, keepsNext⟩ := exists_keeps_after first keeps
    rcases ih others keepsNext after with earlier | ⟨source, among, provides⟩
    · refine (mem_or_provides_make keeps.cache_eq keepsNext.cache_eq earlier).imp id fun provides => ?_
      exact ⟨_, List.mem_cons_self .., provides⟩
    · exact .inr ⟨source, List.mem_cons_of_mem _ among, provides⟩

end PlannedCall

/-- Under one key, a result is computed once for as long as it is kept. -/
structure Repeats (ttl : Number) (calls : List (MadeCall Item)) : Prop where
  /-- Once a call has computed a result, every call with its key returns the result, as long as less
  than its lifetime has passed. Such a call makes no attempt, does not sleep, and leaves all that is
  shared as it is. -/
  repeated : ∀ (earlier : List (MadeCall Item)) (first : MadeCall Item) (between : List (MadeCall Item))
    (second : MadeCall Item) (later : List (MadeCall Item)) (item : Item),
    calls = earlier ++ first :: (between ++ second :: later) → first.Ran → first.result = .ok item →
    first.policy.key ≠ "" → second.policy.key = first.policy.key →
    (Number.float ((second.before.clock - first.after.clock) * 1000)).less ttl = true →
    second.result = .ok item ∧ second.events = [.answeredFromCache second.policy.key] ∧
      second.after = second.before
  /-- A call that fails makes no difference to what is live at any time after it has begun. -/
  failed : ∀ call ∈ calls, ∀ fault, call.result = .error fault →
    ∀ time, call.before.clock ≤ time → call.after.live time = call.before.live time
  /-- A call is answered from the cache only with the result that an earlier call with its key has
  computed and that has not expired. -/
  answered : ∀ (earlier : List (MadeCall Item)) (call : MadeCall Item) (later : List (MadeCall Item)),
    calls = earlier ++ call :: later → call.isAnswered = true →
    ∃ source ∈ earlier, source.Ran ∧ source.policy.key = call.policy.key ∧ source.result = call.result ∧
      hasPassed ttl source.after.clock call.before.clock = false

section Repetition

variable {ttl : Number} {calls : List (PlannedCall Item)} {guard : Guard Item}

open PlannedCall

theorem Guard.keeps_of_new (new : guard.cache = some (.empty ttl)) (isTime : guard.clock ≤ guard.clock) :
    guard.Keeps ttl (.empty ttl) :=
  ⟨new, rfl, isFilledBy_empty ttl guard.clock, isTime⟩

private theorem exists_make_of_append {earlier later : List (MadeCall Item)} {made : MadeCall Item}
    {cache : TimedCache Item} (keepsTime : ∀ call ∈ calls, call.KeepsTime) (keeps : guard.Keeps ttl cache)
    (split : makeAll calls guard = earlier ++ made :: later) :
    ∃ (before : List (PlannedCall Item)) (call : PlannedCall Item) (rest : List (PlannedCall Item))
      (cache' : TimedCache Item), (∀ call ∈ before, call.KeepsTime) ∧ call.KeepsTime ∧
      (∀ call ∈ rest, call.KeepsTime) ∧ earlier = makeAll before guard ∧
      made = call.make (leave before guard) ∧ later = makeAll rest made.after ∧
      (leave before guard).Keeps ttl cache' := by
  obtain ⟨before, after, rfl, rfl, others⟩ := exists_of_makeAll_eq_append split
  obtain ⟨call, rest, rfl, rfl, rfl⟩ := exists_of_makeAll_eq_cons others.symm
  obtain ⟨keepsBefore, keepsAfter⟩ := List.forall_mem_append.mp keepsTime
  obtain ⟨keepsCall, keepsRest⟩ := List.forall_mem_cons.mp keepsAfter
  obtain ⟨⟨cache', keeps'⟩, -⟩ := exists_keeps_leave keepsBefore keeps
  exact ⟨before, call, rest, cache', keepsBefore, keepsCall, keepsRest, rfl, rfl, rfl, keeps'⟩

/-- Calls that share a new cache repeat results, while no clock is turned back. -/
theorem repeats_makeAll (keepsTime : ∀ call ∈ calls, call.KeepsTime)
    (new : guard.cache = some (.empty ttl)) (isTime : guard.clock ≤ guard.clock) :
    Repeats ttl (makeAll calls guard) where
  repeated earlier first between second later item split ran returned keyed sameKey less := by
    have keeps := Guard.keeps_of_new new isTime
    obtain ⟨before, call, rest, cache, -, callKeeps, restKeeps, -, rfl, others, keepsFirst⟩ :=
      exists_make_of_append keepsTime keeps split
    obtain ⟨cacheAfter, keepsAfter⟩ := exists_keeps_after callKeeps keepsFirst
    obtain ⟨mid, again, -, cacheSecond, midKeeps, againKeeps, -, -, rfl, -, keepsSecond⟩ :=
      exists_make_of_append restKeeps keepsAfter others.symm
    have kept := hasPassed_eq_false_of_less less
    have keyed : call.policy.key ≠ "" := keyed
    have sameKey : again.policy.key = call.policy.key := sameKey
    have waited := againKeeps.wait _ keepsSecond.isTime
    have stored := stored?_make_self keepsFirst.cache_eq ran returned keyed
    have still := stored?_leave midKeeps keepsAfter keyed stored waited kept
    rw [← sameKey] at still keyed
    exact make_of_kept keepsSecond keyed still kept
  failed call among fault failed time later := by
    obtain ⟨earlier, others, split⟩ := List.append_of_mem among
    obtain ⟨before, planned, rest, cache, -, callKeeps, -, -, rfl, -, keepsCall⟩ :=
      exists_make_of_append keepsTime (Guard.keeps_of_new new isTime) split
    exact live_make_of_error callKeeps keepsCall failed later
  answered earlier call later split answered := by
    have keeps := Guard.keeps_of_new new isTime
    obtain ⟨before, planned, rest, cache, beforeKeeps, callKeeps, -, rfl, rfl, -, keepsCall⟩ :=
      exists_make_of_append keepsTime keeps split
    rcases planned.make_cases keepsCall.cache_eq with
      ⟨item, keyed, hit, returned, -⟩ | ⟨missed, -⟩
    · obtain ⟨result, found, kept, rfl⟩ := exists_kept_of_get? hit
      rcases mem_or_provides_leave beforeKeeps keeps keepsCall.cache_eq (Assoc.mem_of_get? found) with
        old | ⟨source, among, ran, sameKey, sameResult, since⟩
      · simp [TimedCache.empty] at old
      · refine ⟨source, among, ran, sameKey, sameResult.trans returned.symm, ?_⟩
        rwa [since, ← keepsCall.ttl_eq]
    · rw [missed] at answered
      cases answered

end Repetition

/-- A call of an outage for a request of its own or, without a key, for none. -/
def keyedCall (key : String) (time : Float) (attempt : Attempt Nat) : PlannedCall Nat :=
  { outageCall time attempt with policy := { Policy.none with breaker := "db", key := key } }

theorem keepsTime_keyedCall (key : String) (time : Float) (attempt : Attempt Nat) :
    (keyedCall key time attempt).KeepsTime where
  wait := (keepsTime_outageCall time attempt).wait
  backend := (keepsTime_outageCall time attempt).backend

/-- A result is repeated while the database is down, until the result expires. -/
def repetition : List (MadeCall Nat) :=
  PlannedCall.makeAll
    [keyedCall "k" 0 (.answered 7), keyedCall "" 0.25 .late, keyedCall "k" 0.5 (.answered 8),
      keyedCall "k" 1 (.answered 8)]
    ⟨some (.empty ⟨1, .int 1000⟩), some (.empty (.int 1000)), 0⟩

theorem repeats_makeAll_repetition :
    Repeats (.int 1000) repetition ∧
      repetition.map (·.result.toOption) = [some 7, none, some 7, none] ∧
      repetition.map (·.events.any PolicyEvent.isAttempt) = [true, true, false, false] := by
  refine ⟨repeats_makeAll ?_ rfl (by decide +kernel), by decide +kernel, by decide +kernel⟩
  intro call among
  simp only [List.mem_cons, List.not_mem_nil, or_false] at among
  rcases among with rfl | rfl | rfl | rfl <;> exact keepsTime_keyedCall ..

end GraphQuery
