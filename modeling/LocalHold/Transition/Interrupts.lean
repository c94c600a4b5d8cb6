import Mathlib.Logic.Basic
import Mathlib.Data.List.Basic

/-!
# Programs that the world can stop

A program asks the world for an answer at every call, and what the call does to
the state may depend on the answer.  The answers are a script.  Where the
script ends the program is interrupted: nothing after that call happens, no
cleanup either.  Quantifying over scripts quantifies over every fault, every
interleaving that the answers describe and every moment of interruption.

`Ensures` is a triple with one conclusion for each way a program can end.  Its
assertions see the answers that are left together with the state, so an
assertion can also speak of what the world has still to say.
-/

namespace Transition.Interrupts

/-- How a program ends. -/
inductive Ending (ε α : Type) where
  | done (result : α)
  | failed (failure : ε)
  | interrupted
deriving DecidableEq

/-- A program over answers `τ` and states `σ`: its ending, the answers that are
left and the state. -/
def Interruptible (τ σ ε α : Type) : Type :=
  List τ → σ → Ending ε α × List τ × σ

variable {τ σ ε α β κ : Type}

namespace Interruptible

/-- Run the continuation where the program has not failed. -/
def andThen (program : Interruptible τ σ ε α) (next : α → Interruptible τ σ ε β) :
    Interruptible τ σ ε β :=
  fun script state =>
    match program script state with
    | (.done result, rest, reached) => next result rest reached
    | (.failed failure, rest, reached) => (.failed failure, rest, reached)
    | (.interrupted, rest, reached) => (.interrupted, rest, reached)

instance : Monad (Interruptible τ σ ε) where
  pure result := fun script state => (.done result, script, state)
  bind := andThen

/-- Give up. -/
def fail (failure : ε) : Interruptible τ σ ε α :=
  fun script state => (.failed failure, script, state)

/-- Go on with a result, or give up. -/
def ofExcept : Except ε α → Interruptible τ σ ε α
  | .ok result => pure result
  | .error failure => fail failure

/-- One call: the next answer decides what it does. -/
def call (act : τ → σ → α × σ) : Interruptible τ σ ε α
  | [], state => (.interrupted, [], state)
  | answer :: rest, state => (.done (act answer state).1, rest, (act answer state).2)

/-- Turn a failure into a value. -/
def attempt (program : Interruptible τ σ ε α) : Interruptible τ σ ε (Except ε α) :=
  fun script state =>
    match program script state with
    | (.done result, rest, reached) => (.done (.ok result), rest, reached)
    | (.failed failure, rest, reached) => (.done (.error failure), rest, reached)
    | (.interrupted, rest, reached) => (.interrupted, rest, reached)

/-- Clean up behind a program that was not interrupted. -/
def afterwards (program : Interruptible τ σ ε α) (cleanup : Interruptible τ σ ε Unit) :
    Interruptible τ σ ε α := do
  let result ← attempt program
  cleanup
  ofExcept result

/-- What one turn of a loop decides. -/
inductive Turn (κ ε α : Type) where
  | again (next : κ)
  | stop (result : Except ε α)

/-- A loop with one call a turn. -/
def loop (turn : κ → τ → σ → Turn κ ε α × σ) : κ → Interruptible τ σ ε α
  | _, [], state => (.interrupted, [], state)
  | count, answer :: rest, state =>
    match turn count answer state with
    | (.again next, reached) => loop turn next rest reached
    | (.stop result, reached) => ofExcept result rest reached

end Interruptible

open Interruptible

/-- From a state that satisfies `pre` the program ends with `after`, fails with
`failing` or is interrupted with `cut`. -/
def Ensures (pre : List τ → σ → Prop) (program : Interruptible τ σ ε α)
    (after : α → List τ → σ → Prop) (failing : ε → List τ → σ → Prop)
    (cut : List τ → σ → Prop) : Prop :=
  ∀ script state, pre script state →
    match program script state with
    | (.done result, rest, reached) => after result rest reached
    | (.failed failure, rest, reached) => failing failure rest reached
    | (.interrupted, rest, reached) => cut rest reached

/-- Whatever happens, an assertion stays true. -/
def Keeps (kept : List τ → σ → Prop) (program : Interruptible τ σ ε α) : Prop :=
  Ensures kept program (fun _ => kept) (fun _ => kept) kept

section Rules

variable {pre pre' : List τ → σ → Prop} {program : Interruptible τ σ ε α}
  {next : α → Interruptible τ σ ε β} {after after' : α → List τ → σ → Prop}
  {last : β → List τ → σ → Prop} {failing failing' : ε → List τ → σ → Prop}
  {cut cut' : List τ → σ → Prop}

theorem Ensures.pure {result : α} (holds : ∀ script state, pre script state →
    after result script state) :
    Ensures pre (pure result : Interruptible τ σ ε α) after failing cut :=
  holds

theorem Ensures.fail {failure : ε} (holds : ∀ script state, pre script state →
    failing failure script state) :
    Ensures pre (fail failure : Interruptible τ σ ε α) after failing cut :=
  holds

theorem Ensures.ofExcept {result : Except ε α}
    (succeeds : ∀ value, result = .ok value → ∀ script state, pre script state →
      after value script state)
    (fails : ∀ failure, result = .error failure → ∀ script state, pre script state →
      failing failure script state) :
    Ensures pre (ofExcept result : Interruptible τ σ ε α) after failing cut := by
  cases result with
  | ok value => exact Ensures.pure (succeeds value rfl)
  | error failure => exact Ensures.fail (fails failure rfl)

/-- Sequencing: the failures and interruptions of both parts count. -/
theorem Ensures.bind (first : Ensures pre program after failing cut)
    (second : ∀ result, Ensures (after result) (next result) last failing cut) :
    Ensures pre (program >>= next) last failing cut := by
  intro script state holds
  have outcome := first script state holds
  change (match andThen program next script state with
    | (.done result, rest, reached) => last result rest reached
    | (.failed failure, rest, reached) => failing failure rest reached
    | (.interrupted, rest, reached) => cut rest reached)
  unfold andThen
  rcases ran : program script state with ⟨ending, rest, reached⟩
  rw [ran] at outcome
  cases ending with
  | done result => exact second result rest reached outcome
  | failed failure => exact outcome
  | interrupted => exact outcome

theorem Ensures.mono (holds : Ensures pre program after failing cut)
    (weaker : ∀ script state, pre' script state → pre script state)
    (done : ∀ result rest state, after result rest state → after' result rest state)
    (failed : ∀ failure rest state, failing failure rest state → failing' failure rest state)
    (interrupted : ∀ rest state, cut rest state → cut' rest state) :
    Ensures pre' program after' failing' cut' := by
  intro script state start
  have outcome := holds script state (weaker script state start)
  rcases ran : program script state with ⟨ending, rest, reached⟩
  rw [ran] at outcome
  cases ending with
  | done result => exact done result rest reached outcome
  | failed failure => exact failed failure rest reached outcome
  | interrupted => exact interrupted rest reached outcome

theorem Ensures.weaken (holds : Ensures pre program after failing cut)
    (weaker : ∀ script state, pre' script state → pre script state) :
    Ensures pre' program after failing cut :=
  holds.mono weaker (fun _ _ _ => id) (fun _ _ _ => id) (fun _ _ => id)

/-- A precondition may be replaced where it holds. -/
theorem Ensures.choose (each : ∀ script state, pre script state →
    ∃ chosen : List τ → σ → Prop, chosen script state ∧
      Ensures chosen program after failing cut) :
    Ensures pre program after failing cut := by
  intro script state start
  rcases each script state start with ⟨chosen, holds, ensures⟩
  exact ensures script state holds

/-- Two triples of one program hold together. -/
theorem Ensures.both (left : Ensures pre program after failing cut)
    (right : Ensures pre' program after' failing' cut') :
    Ensures (fun script state => pre script state ∧ pre' script state) program
      (fun result rest state => after result rest state ∧ after' result rest state)
      (fun failure rest state => failing failure rest state ∧ failing' failure rest state)
      (fun rest state => cut rest state ∧ cut' rest state) := by
  intro script state start
  have first := left script state start.1
  have second := right script state start.2
  rcases ran : program script state with ⟨ending, rest, reached⟩
  rw [ran] at first second
  cases ending with
  | done result => exact ⟨first, second⟩
  | failed failure => exact ⟨first, second⟩
  | interrupted => exact ⟨first, second⟩

theorem Ensures.call {act : τ → σ → α × σ}
    (answered : ∀ answer rest state, pre (answer :: rest) state →
      after (act answer state).1 rest (act answer state).2)
    (stopped : ∀ state, pre [] state → cut [] state) :
    Ensures pre (call act : Interruptible τ σ ε α) after failing cut := by
  intro script state start
  cases script with
  | nil => exact stopped state start
  | cons answer rest => exact answered answer rest state start

theorem Ensures.attempt (holds : Ensures pre program after failing cut) :
    Ensures pre (attempt program)
      (fun result rest state => match result with
        | .ok value => after value rest state
        | .error failure => failing failure rest state)
      failing' cut := by
  intro script state start
  have outcome := holds script state start
  unfold Interruptible.attempt
  rcases ran : program script state with ⟨ending, rest, reached⟩
  rw [ran] at outcome
  cases ending with
  | done result => exact outcome
  | failed failure => exact outcome
  | interrupted => exact outcome

/-- A cleanup may use what the program left, and answers for its own ends. -/
theorem Ensures.afterwards {cleanup : Interruptible τ σ ε Unit}
    {failing'' : ε → List τ → σ → Prop}
    (holds : Ensures pre program after failing cut)
    (tidy : ∀ value, Ensures (after value) cleanup (fun _ => after' value) failing'' cut)
    (mop : ∀ failure, Ensures (failing failure) cleanup (fun _ => failing'' failure)
      failing'' cut) :
    Ensures pre (afterwards program cleanup) after' failing'' cut := by
  unfold Interruptible.afterwards
  apply Ensures.bind holds.attempt
  intro result
  cases result with
  | ok value =>
    apply Ensures.bind (tidy value)
    intro _
    exact Ensures.pure (fun _ _ => id)
  | error failure =>
    apply Ensures.bind (mop failure)
    intro _
    exact Ensures.fail (fun _ _ => id)

/-- The rule of a loop: an invariant of its turns, from which every way to stop
concludes. -/
theorem Ensures.loop {turn : κ → τ → σ → Turn κ ε α × σ} (invariant : κ → List τ → σ → Prop)
    (again : ∀ count answer rest state next, invariant count (answer :: rest) state →
      (turn count answer state).1 = .again next →
      invariant next rest (turn count answer state).2)
    (finished : ∀ count answer rest state value, invariant count (answer :: rest) state →
      (turn count answer state).1 = .stop (.ok value) →
      after value rest (turn count answer state).2)
    (failed : ∀ count answer rest state failure, invariant count (answer :: rest) state →
      (turn count answer state).1 = .stop (.error failure) →
      failing failure rest (turn count answer state).2)
    (stopped : ∀ count state, invariant count [] state → cut [] state) (count : κ) :
    Ensures (invariant count) (loop turn count) after failing cut := by
  intro script
  induction script generalizing count with
  | nil => exact stopped count
  | cons answer rest inductionHypothesis =>
    intro state start
    have onward := again count answer rest state
    have ended := finished count answer rest state
    have broken := failed count answer rest state
    unfold Interruptible.loop
    rcases taken : turn count answer state with ⟨decision, reached⟩
    rw [taken] at onward ended broken
    cases decision with
    | again following =>
      exact inductionHypothesis following reached (onward following start rfl)
    | stop result =>
      cases result with
      | ok value => exact ended value start rfl
      | error failure => exact broken failure start rfl

end Rules

section Invariants

variable {kept kept' : List τ → σ → Prop} {program : Interruptible τ σ ε α}
  {next : α → Interruptible τ σ ε β}

theorem Keeps.pure {result : α} : Keeps kept (pure result : Interruptible τ σ ε α) :=
  Ensures.pure (fun _ _ => id)

theorem Keeps.fail {failure : ε} : Keeps kept (fail failure : Interruptible τ σ ε α) :=
  Ensures.fail (fun _ _ => id)

theorem Keeps.ofExcept {result : Except ε α} :
    Keeps kept (ofExcept result : Interruptible τ σ ε α) :=
  Ensures.ofExcept (fun _ _ _ _ => id) (fun _ _ _ _ => id)

theorem Keeps.bind (first : Keeps kept program) (second : ∀ result, Keeps kept (next result)) :
    Keeps kept (program >>= next) :=
  Ensures.bind first second

theorem Keeps.call {act : τ → σ → α × σ}
    (answered : ∀ answer rest state, kept (answer :: rest) state →
      kept rest (act answer state).2) :
    Keeps kept (call act : Interruptible τ σ ε α) :=
  Ensures.call answered (fun _ => id)

/-- An attempt does not fail. -/
theorem Keeps.attempted {failing : ε → List τ → σ → Prop} (holds : Keeps kept program) :
    Ensures kept (Interruptible.attempt program) (fun _ => kept) failing kept := by
  apply Ensures.mono (Ensures.attempt holds) (fun _ _ => id) _ (fun _ _ _ => id) (fun _ _ => id)
  intro result rest state
  cases result with
  | ok value => exact id
  | error failure => exact id

theorem Keeps.attempt (holds : Keeps kept program) : Keeps kept (attempt program) :=
  holds.attempted

theorem Keeps.loop {turn : κ → τ → σ → Turn κ ε α × σ}
    (turns : ∀ count answer rest state, kept (answer :: rest) state →
      kept rest (turn count answer state).2) (count : κ) :
    Keeps kept (loop turn count) := by
  apply Ensures.loop (fun _ => kept)
  · intro count answer rest state next start _
    exact turns count answer rest state start
  · intro count answer rest state value start _
    exact turns count answer rest state start
  · intro count answer rest state failure start _
    exact turns count answer rest state start
  · intro _ state start
    exact start

/-- A triple goes on in company of an invariant that the program keeps. -/
theorem Ensures.with {pre : List τ → σ → Prop} {after : α → List τ → σ → Prop}
    {failing : ε → List τ → σ → Prop} {cut : List τ → σ → Prop}
    (holds : Ensures pre program after failing cut) (keeps : Keeps kept program) :
    Ensures (fun script state => pre script state ∧ kept script state) program
      (fun result rest state => after result rest state ∧ kept rest state)
      (fun failure rest state => failing failure rest state ∧ kept rest state)
      (fun rest state => cut rest state ∧ kept rest state) :=
  holds.both keeps

end Invariants

end Transition.Interrupts
