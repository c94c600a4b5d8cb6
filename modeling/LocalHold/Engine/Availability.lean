import LocalHold.Engine.Resilient

/-!
# When a provider is available

A request calls the provider at most once more than it may retry, and only one
that has used up its calls on transient errors clears the flag.  While the probe
is past its load the flag stays cleared, so that each of its stores is a recovery,
and each recovery is signalled once.
-/

namespace LocalHold

open Transition

variable {τ : Type} {config : ResilientConfig} {policy : RetryPolicy}

/-! ## One request -/

/-- The delay that the provider asks for with a result. -/
def askedDelay : Except EmbeddingError τ → Option Nat
  | .ok _ => none
  | .error error => error.retryAfter

/-- The counts of a request fit its phase. -/
def Request.Counted (policy : RetryPolicy) (request : Request τ) : Prop :=
  match request.phase with
  | .loading => request.calls = 0 ∧ request.results = [] ∧ request.waits = []
  | .ready attempt =>
      request.calls = attempt ∧ attempt ≤ policy.maxRetries.toNat ∧
        request.results.length = attempt ∧ request.waits.length = attempt
  | .calling attempt =>
      request.calls = attempt + 1 ∧ attempt ≤ policy.maxRetries.toNat ∧
        request.results.length = attempt ∧ request.waits.length = attempt
  | .sleeping attempt =>
      request.calls = attempt + 1 ∧ attempt < policy.maxRetries.toNat ∧
        request.results.length = attempt + 1 ∧ request.waits.length = attempt + 1
  | .storing error =>
      request.calls = policy.maxRetries.toNat + 1 ∧
        request.results.length = policy.maxRetries.toNat + 1 ∧
        request.results.getLast? = some (.error error) ∧ ∃ source, error = .transient source
  | .finished _ => request.calls ≤ policy.maxRetries.toNat + 1
  | .dropped => request.calls ≤ policy.maxRetries.toNat + 1

/-- A request keeps its counts, and its waits answer the results before them. -/
structure Request.Sound (policy : RetryPolicy) (request : Request τ) : Prop where
  counted : request.Counted policy
  allowed : ∀ wait ∈ request.waits, policy.Allows wait
  asked : request.waits.map Prod.fst <+: request.results.map askedDelay

theorem Request.sound_start (policy : RetryPolicy) (kind : RequestKind) :
    (Request.start τ kind).Sound policy :=
  ⟨⟨rfl, rfl, rfl⟩, List.forall_mem_nil _, List.nil_prefix⟩

theorem Request.Sound.calls_le {request : Request τ} (sound : request.Sound policy) :
    request.calls ≤ policy.maxRetries.toNat + 1 := by
  have counted := sound.counted
  rw [Request.Counted] at counted
  split at counted <;> omega

/-- Where an error leads: a transient one to the store, any other to the end. -/
theorem handleEmbedError_cases (error : EmbeddingError) :
    (∃ source, error = .transient source ∧
        handleEmbedError error = (.storing error : RequestPhase τ)) ∨
      handleEmbedError error = (.finished (.error error) : RequestPhase τ) := by
  cases error with
  | transient source => exact Or.inl ⟨source, rfl, rfl⟩
  | _ => exact Or.inr rfl

/-- Where an answer leads. -/
theorem RetryPolicy.answered_cases (policy : RetryPolicy) (kind : RequestKind) (attempt : Nat)
    (result : Except EmbeddingError τ) (jitterPerMille : Nat) :
    (∃ outcome, policy.answered kind attempt result jitterPerMille = (.finished outcome, [])) ∨
      (∃ source, result = .error (.transient source) ∧ policy.maxRetries.toNat ≤ attempt ∧
        policy.answered kind attempt result jitterPerMille = (.storing (.transient source), [])) ∨
      ∃ delay, attempt < policy.maxRetries.toNat ∧ policy.Allows (askedDelay result, delay) ∧
        policy.answered kind attempt result jitterPerMille =
          (.sleeping attempt, [(askedDelay result, delay)]) := by
  cases result with
  | ok value => exact Or.inl ⟨.ok value, rfl⟩
  | error error =>
      rw [RetryPolicy.answered]
      split
      · rw [RetryPolicy.retry]
        split
        · next stops =>
            rcases handleEmbedError_cases (τ := τ) error with ⟨source, rfl, stored⟩ | ended
            · rcases stops with notRetryable | spent
              · cases notRetryable
              · exact Or.inr (Or.inl ⟨source, rfl, spent, by rw [stored]⟩)
            · exact Or.inl ⟨.error error, by rw [ended]⟩
        · next goesOn =>
            rw [not_or, Nat.not_le] at goesOn
            split
            · next refused =>
                rcases handleEmbedError_cases (τ := τ) error with ⟨source, rfl, stored⟩ | ended
                · -- A transient error asks for no delay, so none can be too long.
                  cases refused
                · exact Or.inl ⟨.error error, by rw [ended]⟩
            · next delay delayEq =>
                exact Or.inr (Or.inr ⟨delay, goesOn.2,
                  RetryPolicy.delayWithJitter_bounds delayEq, rfl⟩)
      · exact Or.inl ⟨.error error, rfl⟩

theorem prefix_append_of_length {α : Type} {first second : List α} (tail rest : List α)
    (before : first <+: second) (same : first.length = second.length) (more : tail <+: rest) :
    first ++ tail <+: second ++ rest := by
  rw [before.eq_of_length same]
  exact (List.prefix_append_right_inj second).mpr more

/-- A step of a request keeps its counts. -/
theorem Request.sound_step {available flag : Bool} {request next : Request τ}
    {event : RequestEvent τ} (sound : request.Sound policy)
    (stepEq : request.step policy available event = some (flag, next)) : next.Sound policy := by
  obtain ⟨kind, phase, calls, results, waits⟩ := request
  obtain ⟨counted, allowed, asked⟩ := sound
  cases event with
  | load =>
      cases phase with
      | loading =>
          cases stepEq
          obtain ⟨called, answered, waited⟩ := counted
          refine ⟨?_, allowed, asked⟩
          cases available with
          | true =>
              refine ⟨called, Nat.zero_le _, ?_, ?_⟩
              · exact congrArg List.length answered
              · exact congrArg List.length waited
          | false => exact called.le.trans (Nat.zero_le _)
      | _ => cases stepEq
  | call =>
      cases phase with
      | ready attempt =>
          cases stepEq
          obtain ⟨called, within, answered, waited⟩ := counted
          exact ⟨⟨congrArg (· + 1) called, within, answered, waited⟩, allowed, asked⟩
      | _ => cases stepEq
  | answer result jitterPerMille =>
      cases phase with
      | calling attempt =>
          rw [Request.step] at stepEq
          dsimp only at stepEq
          split at stepEq
          · cases stepEq
            obtain ⟨called, within, answered, waited⟩ := counted
            have same : (waits.map Prod.fst).length = (results.map askedDelay).length := by
              rw [List.length_map, List.length_map]
              exact waited.trans answered.symm
            rcases policy.answered_cases kind attempt result jitterPerMille with
              ⟨outcome, ended⟩ | ⟨source, rfl, spent, stored⟩ | ⟨delay, more, bounded, slept⟩
            · rw [ended]
              refine ⟨?_, ?_, ?_⟩
              · exact called.le.trans (Nat.succ_le_succ within)
              · simpa using allowed
              · simpa using asked.trans (List.prefix_append _ _)
            · rw [stored]
              refine ⟨⟨?_, ?_, ?_, source, rfl⟩, ?_, ?_⟩
              · exact called.trans (congrArg (· + 1) (Nat.le_antisymm within spent))
              · dsimp only at answered ⊢
                rw [List.length_append, answered, Nat.le_antisymm within spent]
                rfl
              · exact List.getLast?_concat
              · simpa using allowed
              · simpa using asked.trans (List.prefix_append _ _)
            · rw [slept]
              refine ⟨⟨called, more, ?_, ?_⟩, ?_, ?_⟩
              · dsimp only at answered ⊢
                rw [List.length_append, answered]
                rfl
              · dsimp only at waited ⊢
                rw [List.length_append, waited]
                rfl
              · intro wait waitMem
                rcases List.mem_append.mp waitMem with earlier | last
                · exact allowed wait earlier
                · rw [List.mem_singleton.mp last]
                  exact bounded
              · dsimp only
                rw [List.map_append, List.map_append]
                exact prefix_append_of_length _ _ asked same (List.prefix_refl _)
          · cases stepEq
      | _ => cases stepEq
  | wake =>
      cases phase with
      | sleeping attempt =>
          cases stepEq
          obtain ⟨called, within, answered, waited⟩ := counted
          have small : attempt + 1 ≤ u32Max :=
            Nat.le_sub_one_of_lt (lt_of_le_of_lt within policy.maxRetries.toNat_lt)
          refine ⟨?_, allowed, asked⟩
          rw [Nat.min_eq_left small]
          exact ⟨called, within, answered, waited⟩
      | _ => cases stepEq
  | store =>
      cases phase with
      | storing error =>
          cases stepEq
          exact ⟨counted.1.le, allowed, asked⟩
      | _ => cases stepEq
  | drop =>
      cases phase with
      | calling attempt =>
          cases stepEq
          obtain ⟨called, within, -, -⟩ := counted
          exact ⟨called.le.trans (Nat.succ_le_succ within), allowed, asked⟩
      | sleeping attempt =>
          cases stepEq
          obtain ⟨called, within, -, -⟩ := counted
          exact ⟨called.le.trans (Nat.succ_le_succ within.le), allowed, asked⟩
      | _ => cases stepEq

/-- A step of a request keeps the flag, or it is the store after the last
transient error. -/
theorem Request.step_flag {available flag : Bool} {request next : Request τ}
    {event : RequestEvent τ} (sound : request.Sound policy)
    (stepEq : request.step policy available event = some (flag, next)) :
    flag = available ∨
      flag = false ∧ event = .store ∧ request.calls = policy.maxRetries.toNat + 1 ∧
        request.results.length = policy.maxRetries.toNat + 1 ∧
        ∃ source, request.results.getLast? = some (.error (.transient source)) ∧
          next.phase = .finished (.error (.transient source)) := by
  obtain ⟨kind, phase, calls, results, waits⟩ := request
  cases event with
  | store =>
      cases phase with
      | storing error =>
          cases stepEq
          obtain ⟨called, answered, last, source, rfl⟩ := sound.counted
          exact Or.inr ⟨rfl, rfl, called, answered, source, last, rfl⟩
      | _ => cases stepEq
  | answer result jitterPerMille =>
      cases phase with
      | calling attempt =>
          rw [Request.step] at stepEq
          dsimp only at stepEq
          split at stepEq
          · cases stepEq
            exact Or.inl rfl
          · cases stepEq
      | _ => cases stepEq
  | _ =>
      cases phase with
      | _ => cases stepEq <;> exact Or.inl rfl

/-! ## The flag and the probe -/

/-- The probe has found the flag cleared and has not stored yet. -/
def ProbePhase.pastLoad : ProbePhase τ → Bool
  | .ready => true
  | .checking => true
  | .storing _ => true
  | _ => false

/-- The probe has set the flag and has not signalled it yet. -/
def ProbePhase.owesSignal : ProbePhase τ → Bool
  | .notifying => true
  | _ => false

/-- What a step of the probe does: it keeps the flag unless it stores, and it is
past its load only when it found the flag cleared. -/
theorem ProbePhase.step_cases {available flag : Bool} {phase next : ProbePhase τ}
    {event : ProbeEvent τ} (stepEq : phase.step available event = some (flag, next)) :
    (flag = available ∧ event ≠ .notify ∧ phase.owesSignal = false ∧ next.owesSignal = false ∧
        (next.pastLoad = true → available = false ∨ phase.pastLoad = true) ∧
        ∀ health, next = .storing health → reachesProvider health = true) ∨
      (flag = available ∧ event = .notify ∧ phase = .notifying ∧ next = .sleeping) ∨
      (flag = true ∧ event = .store ∧ next = .notifying ∧ ∃ health, phase = .storing health) := by
  cases phase with
  | sleeping =>
      cases event <;> cases stepEq
      all_goals exact Or.inl ⟨rfl, nofun, rfl, rfl, nofun, nofun⟩
  | loading =>
      cases event <;> cases stepEq
      cases available with
      | true => exact Or.inl ⟨rfl, nofun, rfl, rfl, nofun, nofun⟩
      | false => exact Or.inl ⟨rfl, nofun, rfl, rfl, fun _ => Or.inl rfl, nofun⟩
  | ready =>
      cases event <;> cases stepEq
      exact Or.inl ⟨rfl, nofun, rfl, rfl, fun _ => Or.inr rfl, nofun⟩
  | checking =>
      cases event with
      | answer health =>
          cases stepEq
          cases reached : reachesProvider health with
          | true =>
              refine Or.inl ⟨rfl, nofun, rfl, rfl, fun _ => Or.inr rfl, ?_⟩
              rintro other ⟨⟩
              exact reached
          | false => exact Or.inl ⟨rfl, nofun, rfl, rfl, fun _ => Or.inr rfl, nofun⟩
      | stop =>
          cases stepEq
          exact Or.inl ⟨rfl, nofun, rfl, rfl, nofun, nofun⟩
      | _ => cases stepEq
  | storing health =>
      cases event <;> cases stepEq
      exact Or.inr (Or.inr ⟨rfl, rfl, rfl, health, rfl⟩)
  | notifying =>
      cases event <;> cases stepEq
      exact Or.inr (Or.inl ⟨rfl, rfl, rfl, rfl⟩)
  | ended => cases event <;> cases stepEq

/-- Requests are sound, the flag is cleared while the probe is past its load, and
the probe stores only after it reached the provider. -/
structure ResilientWorld.Sound (config : ResilientConfig) (world : ResilientWorld τ) : Prop where
  requests : ∀ request ∈ world.requests, request.Sound config.retryPolicy
  cleared : world.probe.pastLoad = true → world.available = false
  reached : ∀ health, world.probe = .storing health → reachesProvider health = true

theorem ResilientWorld.sound_start (config : ResilientConfig)
    (initialHealth : Except EmbeddingError τ) : (start initialHealth).Sound config :=
  ⟨List.forall_mem_nil _, nofun, nofun⟩

theorem ResilientWorld.sound_step {world next : ResilientWorld τ} {event : ResilientEvent τ}
    (sound : world.Sound config) (stepEq : world.step config event = some next) :
    next.Sound config := by
  cases event with
  | begin kind =>
      cases stepEq
      refine ⟨fun request requestMem => ?_, sound.cleared, sound.reached⟩
      rcases List.mem_append.mp requestMem with earlier | last
      · exact sound.requests request earlier
      · rw [List.mem_singleton.mp last]
        exact Request.sound_start config.retryPolicy kind
  | request index event =>
      obtain ⟨request, found, moved⟩ := Option.bind_eq_some_iff.mp stepEq
      obtain ⟨⟨flag, after⟩, requestStep, rfl⟩ := Option.map_eq_some_iff.mp moved
      have wasSound := sound.requests request (List.mem_of_getElem? found)
      refine ⟨fun other otherMem => ?_, fun past => ?_, sound.reached⟩
      · rcases List.mem_or_eq_of_mem_set otherMem with before | rfl
        · exact sound.requests other before
        · exact Request.sound_step wasSound requestStep
      · rcases Request.step_flag wasSound requestStep with kept | ⟨clears, _⟩
        · exact kept.trans (sound.cleared past)
        · exact clears
  | probe event =>
      obtain ⟨⟨flag, after⟩, probeStep, rfl⟩ := Option.map_eq_some_iff.mp stepEq
      rcases ProbePhase.step_cases probeStep with
        ⟨kept, -, -, -, past, reached⟩ | ⟨-, -, -, rested⟩ | ⟨-, -, stored, -⟩
      · refine ⟨sound.requests, fun isPast => ?_, reached⟩
        rcases past isPast with cleared | wasPast
        · exact kept.trans cleared
        · exact kept.trans (sound.cleared wasPast)
      · subst rested
        exact ⟨sound.requests, nofun, nofun⟩
      · subst stored
        exact ⟨sound.requests, nofun, nofun⟩

theorem ResilientWorld.sound_run {initialHealth : Except EmbeddingError τ}
    {events : List (ResilientEvent τ)} {world : ResilientWorld τ}
    (runEq : run (step config) (start initialHealth) events = some world) : world.Sound config :=
  run_invariant (fun _ _ _ sound stepEq => sound_step sound stepEq)
    (sound_start config initialHealth) runEq

/-- A step that changes the flag is the last store of a request whose calls are
used up, or the store of a probe that reached the provider. -/
def ResilientWorld.ChangesFlag (config : ResilientConfig) (world : ResilientWorld τ)
    (event : ResilientEvent τ) (next : ResilientWorld τ) : Prop :=
  (world.available = true ∧ next.available = false ∧
      ∃ index request ended source, event = .request index .store ∧
        world.requests[index]? = some request ∧
        request.calls = config.maxRetries.toNat + 1 ∧
        request.results.length = config.maxRetries.toNat + 1 ∧
        request.results.getLast? = some (.error (.transient source)) ∧
        next.requests[index]? = some ended ∧
        ended.phase = .finished (.error (.transient source))) ∨
    (world.available = false ∧ next.available = true ∧ event = .probe .store ∧
      ∃ health, world.probe = .storing health ∧ reachesProvider health = true)

theorem ResilientWorld.Sound.changesFlag {world next : ResilientWorld τ}
    {event : ResilientEvent τ} (sound : world.Sound config)
    (stepEq : world.step config event = some next) (changed : next.available ≠ world.available) :
    world.ChangesFlag config event next := by
  cases event with
  | begin kind =>
      cases stepEq
      exact absurd rfl changed
  | request index event =>
      obtain ⟨request, found, moved⟩ := Option.bind_eq_some_iff.mp stepEq
      obtain ⟨⟨flag, after⟩, requestStep, rfl⟩ := Option.map_eq_some_iff.mp moved
      have wasSound := sound.requests request (List.mem_of_getElem? found)
      rcases Request.step_flag wasSound requestStep with
        kept | ⟨clears, rfl, called, answered, source, last, ended⟩
      · exact absurd kept changed
      · have wasSet : world.available = true := by
          rw [clears] at changed
          simpa using changed.symm
        obtain ⟨bound, -⟩ := List.getElem?_eq_some_iff.mp found
        exact Or.inl ⟨wasSet, clears, index, request, after, source, rfl, found, called, answered,
          last, List.getElem?_set_self bound, ended⟩
  | probe event =>
      obtain ⟨⟨flag, after⟩, probeStep, rfl⟩ := Option.map_eq_some_iff.mp stepEq
      rcases ProbePhase.step_cases probeStep with
        ⟨kept, _⟩ | ⟨kept, _⟩ | ⟨set, rfl, -, health, storing⟩
      · exact absurd kept changed
      · exact absurd kept changed
      · have wasCleared : world.available = false := sound.cleared (by rw [storing]; rfl)
        exact Or.inr ⟨wasCleared, set, rfl, health, storing, sound.reached health storing⟩

/-! ## Recoveries and signals -/

/-- A step sets the flag. -/
def recovers (before : ResilientWorld τ) (_ : ResilientEvent τ) (after : ResilientWorld τ) : Bool :=
  !before.available && after.available

/-- The signals given and owed. -/
def ResilientWorld.announced (world : ResilientWorld τ) : Nat :=
  world.notified + if world.probe.owesSignal then 1 else 0

/-- With a notifier the signals given and owed grow exactly at the recoveries. -/
theorem ResilientWorld.announced_step {world next : ResilientWorld τ} {event : ResilientEvent τ}
    (notifier : config.recoveryNotify = true) (sound : world.Sound config)
    (stepEq : world.step config event = some next) :
    next.announced = world.announced + if recovers world event next then 1 else 0 := by
  have notAgain : next.available = world.available → recovers world event next = false := by
    intro kept
    rw [recovers, kept, Bool.not_and_self]
  cases event with
  | begin kind =>
      cases stepEq
      rw [notAgain rfl]
      rfl
  | request index event =>
      obtain ⟨request, found, moved⟩ := Option.bind_eq_some_iff.mp stepEq
      obtain ⟨⟨flag, after⟩, requestStep, rfl⟩ := Option.map_eq_some_iff.mp moved
      have wasSound := sound.requests request (List.mem_of_getElem? found)
      have notSet : recovers world (.request index event)
          { world with available := flag, requests := world.requests.set index after } = false := by
        rcases Request.step_flag wasSound requestStep with kept | ⟨clears, _⟩
        · exact notAgain kept
        · rw [recovers, clears, Bool.and_false]
      rw [notSet]
      rfl
  | probe event =>
      obtain ⟨⟨flag, after⟩, probeStep, rfl⟩ := Option.map_eq_some_iff.mp stepEq
      rcases ProbePhase.step_cases probeStep with
        ⟨kept, other, owedBefore, owedAfter, -, -⟩ | ⟨kept, rfl, owing, rested⟩ |
        ⟨set, rfl, stored, health, storing⟩
      · have silent : config.signals event = 0 := by
          cases event with
          | notify => exact absurd rfl other
          | _ => rfl
        rw [notAgain kept, announced, announced, owedBefore, owedAfter, silent]
        rfl
      · have signalled : config.signals (τ := τ) .notify = 1 := if_pos notifier
        rw [notAgain kept, announced, announced, owing, rested, signalled]
        rfl
      · have wasCleared : world.available = false := sound.cleared (by rw [storing]; rfl)
        rw [announced, announced, storing, recovers, wasCleared, set, stored]
        rfl

/-- With a notifier the recoveries of a run are the signals given and owed. -/
theorem ResilientWorld.recoveries_announced {initialHealth : Except EmbeddingError τ}
    {events : List (ResilientEvent τ)} {world : ResilientWorld τ}
    (notifier : config.recoveryNotify = true)
    (runEq : run (step config) (start initialHealth) events = some world) :
    occurrences (step config) recovers (start initialHealth) events = world.announced := by
  have counted := measure_eq_add_occurrences
    (fun _ _ _ sound stepEq => ⟨sound_step sound stepEq, announced_step notifier sound stepEq⟩)
    (sound_start config initialHealth) runEq
  rw [counted]
  exact (Nat.zero_add _).symm

/-- Without a notifier there are no signals. -/
theorem ResilientWorld.notified_of_silent {initialHealth : Except EmbeddingError τ}
    {events : List (ResilientEvent τ)} {world : ResilientWorld τ}
    (silent : config.recoveryNotify = false)
    (runEq : run (step config) (start initialHealth) events = some world) :
    world.notified = 0 := by
  have noSignal : ∀ event : ProbeEvent τ, config.signals event = 0 := by
    intro event
    cases event with
    | notify => exact if_neg (by simp [silent])
    | _ => rfl
  have opening : (start initialHealth).notified = 0 := rfl
  refine @run_invariant _ _ (step config) (·.notified = 0) ?_ _ _ _ opening runEq
  intro before event after none stepEq
  cases event with
  | begin kind =>
      cases stepEq
      exact none
  | request index event =>
      obtain ⟨request, -, moved⟩ := Option.bind_eq_some_iff.mp stepEq
      obtain ⟨_, -, rfl⟩ := Option.map_eq_some_iff.mp moved
      exact none
  | probe event =>
      obtain ⟨_, -, rfl⟩ := Option.map_eq_some_iff.mp stepEq
      dsimp only
      rw [none, noSignal event]

/-- In every run a request calls the provider at most once more than it may retry,
and each of its waits is at most the largest backoff and at least the delay that
the result before it asked for.  The flag is cleared only at the end of a request
whose calls are used up and whose last result is transient, and set only by a
probe that reached the provider.  With a notifier there is one signal for each
time the flag is set. -/
theorem resilient_provider (config : ResilientConfig) (initialHealth : Except EmbeddingError τ)
    {events : List (ResilientEvent τ)} {world : ResilientWorld τ}
    (runEq : run (ResilientWorld.step config) (.start initialHealth) events = some world) :
    (∀ request ∈ world.requests,
        request.calls ≤ config.maxRetries.toNat + 1 ∧
        (∀ wait ∈ request.waits, wait.2 ≤ config.maxBackoff ∧
          ∀ providerDelay ∈ wait.1, providerDelay ≤ wait.2) ∧
        request.waits.map Prod.fst <+: request.results.map askedDelay) ∧
      (∀ event next, world.step config event = some next → next.available ≠ world.available →
        world.ChangesFlag config event next) ∧
      (config.recoveryNotify = true →
        occurrences (ResilientWorld.step config) recovers (.start initialHealth) events =
          world.notified + if world.probe.owesSignal then 1 else 0) ∧
      (config.recoveryNotify = false → world.notified = 0) := by
  have sound := ResilientWorld.sound_run runEq
  refine ⟨fun request requestMem => ?_, fun event next => sound.changesFlag,
    fun notifier => ResilientWorld.recoveries_announced notifier runEq,
    fun silent => ResilientWorld.notified_of_silent silent runEq⟩
  have requestSound := sound.requests request requestMem
  exact ⟨requestSound.calls_le, requestSound.allowed, requestSound.asked⟩

/-- One retry, and no wait of more than a second. -/
def oneRetry : ResilientConfig := ⟨true, 1, 10 ^ 8, 10 ^ 9⟩

/-- A request is rate limited, waits, and fails; then the probe is rate limited. -/
def outageEvents : List (ResilientEvent Unit) :=
  [.begin .embed, .request 0 .load, .request 0 .call,
    .request 0 (.answer (.error (.rateLimited "busy" (some (5 * 10 ^ 8)))) 1000),
    .request 0 .wake, .request 0 .call,
    .request 0 (.answer (.error (.transient "refused")) 1000), .request 0 .store,
    .probe .wake, .probe .load, .probe .check,
    .probe (.answer (.error (.rateLimited "busy" none)))]

/-- The request has ended and the probe is about to set the flag. -/
def outageWorld : ResilientWorld Unit :=
  ⟨false,
    [⟨.embed, .finished (.error (.transient "refused")), 2,
      [.error (.rateLimited "busy" (some (5 * 10 ^ 8))), .error (.transient "refused")],
      [(some (5 * 10 ^ 8), 5 * 10 ^ 8)]⟩],
    .storing (.error (.rateLimited "busy" none)), 0⟩

theorem run_outageEvents :
    run (ResilientWorld.step oneRetry) (.start (.ok ())) outageEvents = some outageWorld := by
  decide +kernel

/-- The probe has set the flag and owes its signal. -/
def recoveringWorld : ResilientWorld Unit :=
  { outageWorld with available := true, probe := .notifying }

/-- The outage and the recovery that ends it. -/
def recoveryEvents : List (ResilientEvent Unit) :=
  outageEvents ++ [.probe .store, .probe .notify]

def recoveredWorld : ResilientWorld Unit :=
  { recoveringWorld with probe := .sleeping, notified := 1 }

theorem run_recoveryEvents :
    run (ResilientWorld.step oneRetry) (.start (.ok ())) recoveryEvents = some recoveredWorld := by
  decide +kernel

theorem resilient_provider_outage :
    (∀ request ∈ recoveredWorld.requests, request.calls ≤ 2) ∧
      outageWorld.ChangesFlag oneRetry (.probe .store) recoveringWorld ∧
      occurrences (ResilientWorld.step oneRetry) recovers (.start (.ok ())) recoveryEvents = 1 := by
  obtain ⟨-, changes, -, -⟩ := resilient_provider oneRetry (.ok ()) run_outageEvents
  obtain ⟨bounded, -, signalled, -⟩ := resilient_provider oneRetry (.ok ()) run_recoveryEvents
  refine ⟨fun request requestMem => (bounded request requestMem).1, ?_, signalled rfl⟩
  exact changes (.probe .store) recoveringWorld rfl nofun

/-- The result behind a store. -/
def ResilientWorld.decidedBy (world : ResilientWorld τ) :
    ResilientEvent τ → Option (Except EmbeddingError τ)
  | .request index .store => world.requests[index]?.bind fun request => request.results.getLast?
  | .probe .store =>
      match world.probe with
      | .storing health => some health
      | _ => none
  | _ => none

/-- A health check that is rate limited sets the flag. -/
theorem rate_limit_sets_flag :
    ¬ ∀ (config : ResilientConfig) (initialHealth : Except EmbeddingError Unit)
      (events : List (ResilientEvent Unit)) (world next : ResilientWorld Unit)
      (event : ResilientEvent Unit),
      run (ResilientWorld.step config) (.start initialHealth) events = some world →
      world.step config event = some next → next.available ≠ world.available →
      ∀ source retryAfter,
        world.decidedBy event ≠ some (.error (.rateLimited source retryAfter)) := by
  intro never
  exact never oneRetry (.ok ()) outageEvents outageWorld recoveringWorld (.probe .store)
    run_outageEvents rfl nofun "busy" none rfl

end LocalHold
