import LocalHold.Engine.EmbedBatches
import LocalHold.Transition.Counting
import LocalHold.Transition.Workers

/-!
# The resilient embedding provider

A provider is wrapped with a flag that says whether it is available.  Requests
load the flag, call the provider with retries and clear the flag when the last
retry fails with a transient error.  One background task checks the health of a
provider that is unavailable and sets the flag again.  Requests and the task take
turns: each load, store, call and wait is one step, and a future can be dropped
where it waits.
-/

namespace LocalHold

open Transition

/-! ## Delays -/

/-- `u32::MAX`. -/
def u32Max : Nat := 2 ^ 32 - 1

/-- `u64::MAX`. -/
def u64Max : Nat := 2 ^ 64 - 1

/-- `u128::MAX`. -/
def u128Max : Nat := 2 ^ 128 - 1

/-- `Duration::MAX`, in nanoseconds like every duration here. -/
def durationMax : Nat := 2 ^ 64 * 10 ^ 9 - 1

def jitterMinPerMille : Nat := 800
def jitterMaxPerMille : Nat := 1200

/-- `RetryPolicy`. -/
structure RetryPolicy where
  maxRetries : UInt32
  initialBackoff : Nat
  maxBackoff : Nat

/-- `scale_duration`, in whole milliseconds. -/
def scaleDuration (duration perMille : Nat) : Nat :=
  let millis := min (duration / 10 ^ 6 * perMille) u128Max / 1000
  min millis u64Max * 10 ^ 6

/-- `RetryPolicy::delay_with_jitter`. -/
def RetryPolicy.delayWithJitter (policy : RetryPolicy) (retryIndex : Nat)
    (retryAfter : Option Nat) (jitterPerMille : Nat) : Option Nat :=
  if retryAfter.any (policy.maxBackoff < ·) then
    none
  else
    let multiplier := min (2 ^ retryIndex) u32Max
    let exponential := min (min (policy.initialBackoff * multiplier) durationMax) policy.maxBackoff
    let jittered := min (scaleDuration exponential jitterPerMille) policy.maxBackoff
    some (match retryAfter with
      | none => jittered
      | some providerDelay => max providerDelay jittered)

/-- `EmbeddingError::is_retryable`. -/
def EmbeddingError.isRetryable : EmbeddingError → Bool
  | .transient _ => true
  | .rateLimited _ _ => true
  | _ => false

/-- `EmbeddingError::retry_after`. -/
def EmbeddingError.retryAfter : EmbeddingError → Option Nat
  | .rateLimited _ retryAfter => retryAfter
  | _ => none

/-! ## Requests -/

/-- The calls of the wrapped provider. -/
inductive RequestKind where
  | embed
  | embedBatch
  | healthCheck
deriving DecidableEq, Repr

/-- Whether the call goes through `retry_transient`. -/
def RequestKind.retries : RequestKind → Bool
  | .embed => true
  | .embedBatch => true
  | .healthCheck => false

/-- Where a request stands.  `attempt` is the counter of `retry_transient`. -/
inductive RequestPhase (τ : Type) where
  /-- Before the load of the flag. -/
  | loading
  /-- Before a call of the inner provider. -/
  | ready (attempt : Nat)
  /-- The inner provider is awaited. -/
  | calling (attempt : Nat)
  /-- The clock is awaited. -/
  | sleeping (attempt : Nat)
  /-- Before the store of `handle_embed_error`. -/
  | storing (error : EmbeddingError)
  | finished (result : Except EmbeddingError τ)
  /-- The future was dropped. -/
  | dropped
deriving DecidableEq

/-- A request with what it has seen: the calls it made, the results it got and
the waits, each with the delay that the provider had asked for. -/
structure Request (τ : Type) where
  kind : RequestKind
  phase : RequestPhase τ
  calls : Nat
  results : List (Except EmbeddingError τ)
  waits : List (Option Nat × Nat)
deriving DecidableEq

/-- A request that has not begun. -/
def Request.start (τ : Type) (kind : RequestKind) : Request τ :=
  ⟨kind, .loading, 0, [], []⟩

/-- A step of a request. -/
inductive RequestEvent (τ : Type) where
  | load
  | call
  /-- The inner provider answers; the jitter is drawn when there is a retry. -/
  | answer (result : Except EmbeddingError τ) (jitterPerMille : Nat)
  | wake
  | store
  | drop

/-- `handle_embed_error`: a transient error clears the flag first. -/
def handleEmbedError {τ : Type} : EmbeddingError → RequestPhase τ
  | .transient source => .storing (.transient source)
  | error => .finished (.error error)

/-- What `retry_transient` does with an error: where it goes, and its wait. -/
def RetryPolicy.retry {τ : Type} (policy : RetryPolicy) (attempt : Nat) (error : EmbeddingError)
    (jitterPerMille : Nat) : RequestPhase τ × List (Option Nat × Nat) :=
  if error.isRetryable = false ∨ policy.maxRetries.toNat ≤ attempt then
    (handleEmbedError error, [])
  else
    match policy.delayWithJitter attempt error.retryAfter jitterPerMille with
    | none => (handleEmbedError error, [])
    | some delay => (.sleeping attempt, [(error.retryAfter, delay)])

/-- What a request does with an answer of the inner provider. -/
def RetryPolicy.answered {τ : Type} (policy : RetryPolicy) (kind : RequestKind) (attempt : Nat)
    (result : Except EmbeddingError τ) (jitterPerMille : Nat) :
    RequestPhase τ × List (Option Nat × Nat) :=
  match result with
  | .ok value => (.finished (.ok value), [])
  | .error error =>
      if kind.retries then policy.retry attempt error jitterPerMille
      else (.finished (.error error), [])

/-- A step of a request: the flag and the request after it. -/
def Request.step {τ : Type} (policy : RetryPolicy) (available : Bool) (request : Request τ) :
    RequestEvent τ → Option (Bool × Request τ)
  | .load =>
      match request.phase with
      | .loading =>
          some (available, { request with
            phase := if available then .ready 0 else .finished (.error .disabled) })
      | _ => none
  | .call =>
      match request.phase with
      | .ready attempt =>
          some (available, { request with
            phase := .calling attempt, calls := request.calls + 1 })
      | _ => none
  | .answer result jitterPerMille =>
      match request.phase with
      | .calling attempt =>
          if jitterMinPerMille ≤ jitterPerMille ∧ jitterPerMille ≤ jitterMaxPerMille then
            let next := policy.answered request.kind attempt result jitterPerMille
            some (available, { request with
              phase := next.1
              results := request.results ++ [result]
              waits := request.waits ++ next.2 })
          else
            none
      | _ => none
  | .wake =>
      match request.phase with
      | .sleeping attempt =>
          some (available, { request with phase := .ready (min (attempt + 1) u32Max) })
      | _ => none
  | .store =>
      match request.phase with
      | .storing error => some (false, { request with phase := .finished (.error error) })
      | _ => none
  | .drop =>
      match request.phase with
      | .calling _ => some (available, { request with phase := .dropped })
      | .sleeping _ => some (available, { request with phase := .dropped })
      | _ => none

/-! ## The health probe -/

/-- A result that shows that the provider was reached. -/
def reachesProvider {τ : Type} : Except EmbeddingError τ → Bool
  | .ok _ => true
  | .error (.rateLimited _ _) => true
  | .error _ => false

/-- Where the task of `spawn_health_probe` stands. -/
inductive ProbePhase (τ : Type) where
  /-- The interval is awaited. -/
  | sleeping
  | loading
  /-- Before the health check. -/
  | ready
  /-- The health check is awaited. -/
  | checking
  /-- Before the store of the flag. -/
  | storing (health : Except EmbeddingError τ)
  /-- After the store of the flag. -/
  | notifying
  /-- The task was cancelled or aborted. -/
  | ended
deriving DecidableEq

/-- A step of the task. -/
inductive ProbeEvent (τ : Type) where
  | wake
  | load
  | check
  | answer (health : Except EmbeddingError τ)
  | store
  | notify
  | stop

/-- A step of the task: the flag and the task after it.  The task can be stopped
where it waits. -/
def ProbePhase.step {τ : Type} (available : Bool) :
    ProbePhase τ → ProbeEvent τ → Option (Bool × ProbePhase τ)
  | .sleeping, .wake => some (available, .loading)
  | .loading, .load => some (available, if available then .sleeping else .ready)
  | .ready, .check => some (available, .checking)
  | .checking, .answer health =>
      some (available, if reachesProvider health then .storing health else .sleeping)
  | .storing _, .store => some (true, .notifying)
  | .notifying, .notify => some (available, .sleeping)
  | .sleeping, .stop => some (available, .ended)
  | .checking, .stop => some (available, .ended)
  | _, _ => none

/-! ## The provider -/

/-- `ResilientConfig`, without the interval of the probe.  `recoveryNotify` says
whether there is a notifier. -/
structure ResilientConfig where
  recoveryNotify : Bool
  maxRetries : UInt32
  initialBackoff : Nat
  maxBackoff : Nat

/-- `RetryPolicy::new` at a configuration. -/
def ResilientConfig.retryPolicy (config : ResilientConfig) : RetryPolicy :=
  ⟨config.maxRetries, config.initialBackoff, config.maxBackoff⟩

/-- The flag, the requests in the order in which they came, the task, and how
often the notifier was signalled. -/
structure ResilientWorld (τ : Type) where
  available : Bool
  requests : List (Request τ)
  probe : ProbePhase τ
  notified : Nat
deriving DecidableEq

/-- `ResilientEmbedding::new_with_clock`, after the first health check. -/
def ResilientWorld.start {τ : Type} (initialHealth : Except EmbeddingError τ) :
    ResilientWorld τ :=
  ⟨reachesProvider initialHealth, [], .sleeping, 0⟩

/-- A step of a request, of the task, or a new request. -/
inductive ResilientEvent (τ : Type) where
  | begin (kind : RequestKind)
  | request (index : Nat) (event : RequestEvent τ)
  | probe (event : ProbeEvent τ)

/-- The signals of a step of the task. -/
def ResilientConfig.signals {τ : Type} (config : ResilientConfig) : ProbeEvent τ → Nat
  | .notify => if config.recoveryNotify then 1 else 0
  | _ => 0

/-- One step. -/
def ResilientWorld.step {τ : Type} (config : ResilientConfig) (world : ResilientWorld τ) :
    ResilientEvent τ → Option (ResilientWorld τ)
  | .begin kind => some { world with requests := world.requests ++ [Request.start τ kind] }
  | .request index event =>
      world.requests[index]?.bind fun request =>
        (request.step config.retryPolicy world.available event).map fun moved =>
          { world with available := moved.1, requests := world.requests.set index moved.2 }
  | .probe event =>
      (world.probe.step world.available event).map fun moved =>
        { world with
          available := moved.1
          probe := moved.2
          notified := world.notified + config.signals event }

/-! ## Delays stay within their bounds -/

/-- A delay is at most the largest backoff and at least what the provider asked
for. -/
theorem RetryPolicy.delayWithJitter_bounds {policy : RetryPolicy} {retryIndex : Nat}
    {retryAfter : Option Nat} {jitterPerMille delay : Nat}
    (delayEq : policy.delayWithJitter retryIndex retryAfter jitterPerMille = some delay) :
    delay ≤ policy.maxBackoff ∧ ∀ providerDelay ∈ retryAfter, providerDelay ≤ delay := by
  rw [delayWithJitter] at delayEq
  split at delayEq
  · cases delayEq
  · next within =>
      cases retryAfter with
      | none =>
          cases delayEq
          exact ⟨min_le_right _ _, nofun⟩
      | some providerDelay =>
          cases delayEq
          have capped : providerDelay ≤ policy.maxBackoff := by simpa using within
          refine ⟨max_le capped (min_le_right _ _), ?_⟩
          rintro asked ⟨⟩
          exact le_max_left _ _

/-- A wait that `retry_transient` may make. -/
def RetryPolicy.Allows (policy : RetryPolicy) (wait : Option Nat × Nat) : Prop :=
  wait.2 ≤ policy.maxBackoff ∧ ∀ providerDelay ∈ wait.1, providerDelay ≤ wait.2

end LocalHold
