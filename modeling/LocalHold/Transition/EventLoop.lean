import LocalHold.Transition.Run
import Mathlib

/-!
# Event loops with background jobs

A component handles inputs and messages, one at a time.  A handler may start
jobs and send messages.  Jobs run beside the component: each part of a job may
change a shared world, and its last part puts a message at the end of the
mailbox.  The world also changes on its own.

Two kinds of accounting follow a job from its start to the delivery of its
message.  A weight that no part of a job changes can be counted over the jobs
and the mailbox together; a mark that every part of a job respects holds of
everything under way.
-/

namespace Transition.EventLoop

universe u v w x y z t

/-- What a handler asks for besides the next state. -/
inductive Effect (τ : Type u) (μ : Type v) where
  | spawn (job : τ)
  | send (message : μ)

/-- What a part of a job leaves: its message, or the rest of the job. -/
inductive PartResult (τ : Type u) (μ : Type v) where
  | report (message : μ)
  | resume (rest : τ)

/-- A component with its jobs and its world. -/
structure Loop (σ : Type u) (ω : Type v) (ι : Type w) (τ : Type x) (α : Type y) (μ : Type z)
    (δ : Type t) where
  handle : ω → σ → ι → Option (σ × List (Effect τ μ))
  receive : σ → μ → σ × List (Effect τ μ)
  perform : ω → τ → α → Option (ω × PartResult τ μ)
  drift : ω → δ → Option ω
  closed : σ → Bool

/-- A moment of a loop. -/
structure Situation (σ : Type u) (ω : Type v) (τ : Type x) (μ : Type z) where
  state : σ
  world : ω
  jobs : List τ
  mailbox : List μ

/-- What can happen next. -/
inductive Happening (ι : Type w) (α : Type y) (δ : Type t) where
  | input (input : ι)
  | deliver
  | advance (position : Nat) (answer : α)
  | drift (change : δ)

variable {σ : Type u} {ω : Type v} {ι : Type w} {τ : Type x} {α : Type y} {μ : Type z}
  {δ : Type t}

/-- The jobs that a handler starts. -/
def spawned : List (Effect τ μ) → List τ
  | [] => []
  | .spawn job :: rest => job :: spawned rest
  | .send _ :: rest => spawned rest

/-- The messages that a handler sends. -/
def sent : List (Effect τ μ) → List μ
  | [] => []
  | .spawn _ :: rest => sent rest
  | .send message :: rest => message :: sent rest

/-- A handler has returned. -/
def Situation.respond (situation : Situation σ ω τ μ) (answer : σ × List (Effect τ μ)) :
    Situation σ ω τ μ where
  state := answer.1
  world := situation.world
  jobs := situation.jobs ++ spawned answer.2
  mailbox := situation.mailbox ++ sent answer.2

/-- A part of a job has run. -/
def Situation.settle (situation : Situation σ ω τ μ) (position : Nat) (world : ω) :
    PartResult τ μ → Situation σ ω τ μ
  | .report message =>
      { situation with
        world
        jobs := situation.jobs.eraseIdx position
        mailbox := situation.mailbox ++ [message] }
  | .resume rest => { situation with world, jobs := situation.jobs.set position rest }

/-- One step.  A closed component handles nothing more. -/
def Loop.step (loop : Loop σ ω ι τ α μ δ) (situation : Situation σ ω τ μ) :
    Happening ι α δ → Option (Situation σ ω τ μ)
  | .input input =>
      if loop.closed situation.state then none
      else (loop.handle situation.world situation.state input).map situation.respond
  | .deliver =>
      if loop.closed situation.state then none
      else
        match situation.mailbox with
        | [] => none
        | message :: later =>
            some (Situation.respond { situation with mailbox := later }
              (loop.receive situation.state message))
  | .advance position answer =>
      situation.jobs[position]?.bind fun job =>
        (loop.perform situation.world job answer).map fun outcome =>
          situation.settle position outcome.1 outcome.2
  | .drift change =>
      (loop.drift situation.world change).map fun world => { situation with world }

section Inversion

variable {loop : Loop σ ω ι τ α μ δ} {situation next : Situation σ ω τ μ}

theorem Loop.step_input {input : ι} (stepEq : loop.step situation (.input input) = some next) :
    loop.closed situation.state = false ∧
      ∃ answer, loop.handle situation.world situation.state input = some answer ∧
        next = situation.respond answer := by
  rw [Loop.step] at stepEq
  split at stepEq
  · cases stepEq
  · rename_i opened
    rcases Option.map_eq_some_iff.mp stepEq with ⟨answer, handled, rfl⟩
    exact ⟨Bool.eq_false_iff.mpr opened, answer, handled, rfl⟩

theorem Loop.step_deliver (stepEq : loop.step situation .deliver = some next) :
    loop.closed situation.state = false ∧
      ∃ message later, situation.mailbox = message :: later ∧
        next = Situation.respond { situation with mailbox := later }
          (loop.receive situation.state message) := by
  rw [Loop.step] at stepEq
  split at stepEq
  · cases stepEq
  · rename_i opened
    split at stepEq
    · cases stepEq
    · rename_i message later waiting
      cases stepEq
      exact ⟨Bool.eq_false_iff.mpr opened, message, later, waiting, rfl⟩

theorem Loop.step_advance {position : Nat} {answer : α}
    (stepEq : loop.step situation (.advance position answer) = some next) :
    ∃ job world progress, situation.jobs[position]? = some job ∧
      loop.perform situation.world job answer = some (world, progress) ∧
        next = situation.settle position world progress := by
  rw [Loop.step] at stepEq
  rcases Option.bind_eq_some_iff.mp stepEq with ⟨job, running, performed⟩
  rcases Option.map_eq_some_iff.mp performed with ⟨⟨world, progress⟩, ran, rfl⟩
  exact ⟨job, world, progress, running, ran, rfl⟩

theorem Loop.step_drift {change : δ} (stepEq : loop.step situation (.drift change) = some next) :
    ∃ world, loop.drift situation.world change = some world ∧
      next = { situation with world } := by
  rw [Loop.step] at stepEq
  rcases Option.map_eq_some_iff.mp stepEq with ⟨world, drifted, rfl⟩
  exact ⟨world, drifted, rfl⟩

end Inversion

/-! ## Counting what is under way -/

/-- A weight of jobs and of messages. -/
structure Weight (τ : Type x) (μ : Type z) where
  job : τ → Nat
  message : μ → Nat

/-- What an effect adds. -/
def Weight.effect (weight : Weight τ μ) : Effect τ μ → Nat
  | .spawn job => weight.job job
  | .send message => weight.message message

/-- What a part of a job leaves. -/
def Weight.progress (weight : Weight τ μ) : PartResult τ μ → Nat
  | .report message => weight.message message
  | .resume rest => weight.job rest

/-- What the effects of a handler add. -/
def Weight.total (weight : Weight τ μ) (effects : List (Effect τ μ)) : Nat :=
  (effects.map weight.effect).sum

/-- The weight of everything under way. -/
def Situation.load (situation : Situation σ ω τ μ) (weight : Weight τ μ) : Nat :=
  (situation.jobs.map weight.job).sum + (situation.mailbox.map weight.message).sum

/-- No part of a job changes its weight. -/
def Loop.Conserves (loop : Loop σ ω ι τ α μ δ) (weight : Weight τ μ) : Prop :=
  ∀ world job answer next progress, loop.perform world job answer = some (next, progress) →
    weight.progress progress = weight.job job

section Counting

variable {weight : Weight τ μ} {situation : Situation σ ω τ μ}

@[simp]
theorem Weight.total_nil (weight : Weight τ μ) : weight.total [] = 0 :=
  rfl

@[simp]
theorem Weight.total_cons (weight : Weight τ μ) (effect : Effect τ μ)
    (rest : List (Effect τ μ)) :
    weight.total (effect :: rest) = weight.effect effect + weight.total rest :=
  rfl

@[simp]
theorem Weight.total_append (weight : Weight τ μ) (first second : List (Effect τ μ)) :
    weight.total (first ++ second) = weight.total first + weight.total second := by
  simp [Weight.total]

theorem Weight.total_eq (weight : Weight τ μ) (effects : List (Effect τ μ)) :
    weight.total effects =
      ((spawned effects).map weight.job).sum + ((sent effects).map weight.message).sum := by
  induction effects with
  | nil => rfl
  | cons effect rest inductionHypothesis =>
      cases effect with
      | spawn job =>
          simp only [Weight.total_cons, Weight.effect, spawned, sent, List.map_cons, List.sum_cons,
            inductionHypothesis]
          omega
      | send message =>
          simp only [Weight.total_cons, Weight.effect, spawned, sent, List.map_cons, List.sum_cons,
            inductionHypothesis]
          omega

theorem Situation.load_respond (situation : Situation σ ω τ μ) (weight : Weight τ μ)
    (answer : σ × List (Effect τ μ)) :
    (situation.respond answer).load weight = situation.load weight + weight.total answer.2 := by
  simp only [Situation.load, Situation.respond, List.map_append, List.sum_append,
    weight.total_eq answer.2]
  omega

theorem Situation.load_settle (situation : Situation σ ω τ μ) {position : Nat} (world : ω)
    {job : τ} {progress : PartResult τ μ}
    (running : situation.jobs[position]? = some job)
    (conserved : weight.progress progress = weight.job job) :
    (situation.settle position world progress).load weight = situation.load weight := by
  rcases List.getElem?_eq_some_iff.mp running with ⟨bound, rfl⟩
  have split := congrArg (fun jobs => (jobs.map weight.job).sum)
    (List.take_append_drop position situation.jobs)
  rw [List.drop_eq_getElem_cons bound] at split
  simp only [List.map_append, List.map_cons, List.sum_append, List.sum_cons] at split
  cases progress with
  | report message =>
      have same : weight.message message = weight.job situation.jobs[position] := conserved
      simp only [Situation.load, Situation.settle, List.eraseIdx_eq_take_drop_succ, List.map_append,
        List.sum_append, List.map_cons, List.map_nil, List.sum_cons, List.sum_nil]
      omega
  | resume rest =>
      have same : weight.job rest = weight.job situation.jobs[position] := conserved
      simp only [Situation.load, Situation.settle, List.set_eq_take_append_cons_drop, if_pos bound,
        List.map_append, List.sum_append, List.map_cons, List.sum_cons]
      omega

theorem Situation.job_le_load (situation : Situation σ ω τ μ) {job : τ}
    (running : job ∈ situation.jobs) : weight.job job ≤ situation.load weight := by
  have within := List.le_sum_of_mem (List.mem_map_of_mem (f := weight.job) running)
  rw [Situation.load]
  omega

theorem Situation.message_le_load (situation : Situation σ ω τ μ) {message : μ}
    (waiting : message ∈ situation.mailbox) : weight.message message ≤ situation.load weight := by
  have within := List.le_sum_of_mem (List.mem_map_of_mem (f := weight.message) waiting)
  rw [Situation.load]
  omega

theorem Situation.load_deliver (situation : Situation σ ω τ μ) {message : μ} {later : List μ}
    (waiting : situation.mailbox = message :: later) :
    situation.load weight =
      ({ situation with mailbox := later } : Situation σ ω τ μ).load weight +
        weight.message message := by
  simp only [Situation.load, waiting, List.map_cons, List.sum_cons]
  omega

end Counting

/-! ## Everything under way -/

/-- What is known of jobs and of messages. -/
structure Marks (τ : Type x) (μ : Type z) where
  job : τ → Prop
  message : μ → Prop

/-- An effect leaves something marked under way. -/
def Marks.effect (marks : Marks τ μ) : Effect τ μ → Prop
  | .spawn job => marks.job job
  | .send message => marks.message message

/-- So does a part of a job. -/
def Marks.progress (marks : Marks τ μ) : PartResult τ μ → Prop
  | .report message => marks.message message
  | .resume rest => marks.job rest

/-- Everything under way is marked. -/
structure Situation.Carries (situation : Situation σ ω τ μ) (marks : Marks τ μ) : Prop where
  jobs : ∀ job ∈ situation.jobs, marks.job job
  mailbox : ∀ message ∈ situation.mailbox, marks.message message

/-- One kind of mark implies another, for whatever is not heavier than a load. -/
structure Marks.Implies (weight : Weight τ μ) (load : Nat) (strong weak : Marks τ μ) : Prop where
  job : ∀ job, weight.job job ≤ load → strong.job job → weak.job job
  message : ∀ message, weight.message message ≤ load → strong.message message →
    weak.message message

theorem Marks.Implies.refl (weight : Weight τ μ) (load : Nat) (marks : Marks τ μ) :
    marks.Implies weight load marks :=
  ⟨fun _ _ marked => marked, fun _ _ marked => marked⟩

section Carrying

variable {weight : Weight τ μ} {marks strong weak : Marks τ μ} {situation : Situation σ ω τ μ}

theorem Situation.Carries.mono (carries : situation.Carries strong)
    (implies : strong.Implies weight (situation.load weight) weak) : situation.Carries weak := by
  constructor
  · intro job running
    exact implies.job job (situation.job_le_load running) (carries.jobs job running)
  · intro message waiting
    exact implies.message message (situation.message_le_load waiting)
      (carries.mailbox message waiting)

theorem forall_spawned {effects : List (Effect τ μ)}
    (marked : ∀ effect ∈ effects, marks.effect effect) :
    ∀ job ∈ spawned effects, marks.job job := by
  induction effects with
  | nil => simp [spawned]
  | cons effect rest inductionHypothesis =>
      have later := inductionHypothesis fun other present =>
        marked other (List.mem_cons_of_mem effect present)
      cases effect with
      | spawn job =>
          rw [spawned, List.forall_mem_cons]
          exact ⟨marked _ List.mem_cons_self, later⟩
      | send message => exact later

theorem forall_sent {effects : List (Effect τ μ)}
    (marked : ∀ effect ∈ effects, marks.effect effect) :
    ∀ message ∈ sent effects, marks.message message := by
  induction effects with
  | nil => simp [sent]
  | cons effect rest inductionHypothesis =>
      have later := inductionHypothesis fun other present =>
        marked other (List.mem_cons_of_mem effect present)
      cases effect with
      | spawn job => exact later
      | send message =>
          rw [sent, List.forall_mem_cons]
          exact ⟨marked _ List.mem_cons_self, later⟩

theorem Situation.Carries.respond {answer : σ × List (Effect τ μ)}
    (carries : situation.Carries marks) (marked : ∀ effect ∈ answer.2, marks.effect effect) :
    (situation.respond answer).Carries marks := by
  constructor
  · exact List.forall_mem_append.mpr ⟨carries.jobs, forall_spawned marked⟩
  · exact List.forall_mem_append.mpr ⟨carries.mailbox, forall_sent marked⟩

theorem Situation.Carries.settle (position : Nat) (world : ω) {progress : PartResult τ μ}
    (carries : situation.Carries marks) (marked : marks.progress progress) :
    (situation.settle position world progress).Carries marks := by
  cases progress with
  | report message =>
      constructor
      · intro job running
        exact carries.jobs job (List.mem_of_mem_eraseIdx running)
      · intro other waiting
        rcases List.mem_append.mp waiting with waiting | new
        · exact carries.mailbox other waiting
        · rw [List.mem_singleton.mp new]
          exact marked
  | resume rest =>
      constructor
      · intro job running
        rcases List.mem_or_eq_of_mem_set running with running | rfl
        · exact carries.jobs job running
        · exact marked
      · exact carries.mailbox

theorem Situation.Carries.tail {message : μ} {later : List μ}
    (carries : situation.Carries marks) (waiting : situation.mailbox = message :: later) :
    ({ situation with mailbox := later } : Situation σ ω τ μ).Carries marks := by
  constructor
  · exact carries.jobs
  · intro other present
    exact carries.mailbox other (waiting ▸ List.mem_cons_of_mem message present)

theorem Situation.Carries.head {message : μ} {later : List μ}
    (carries : situation.Carries marks) (waiting : situation.mailbox = message :: later) :
    marks.message message :=
  carries.mailbox message (waiting ▸ List.mem_cons_self)

end Carrying

/-! ## The invariant rule -/

/-- An invariant of the component, its world and the load under a weight, with
marks that may refer to the component and the world.  Each handler and each
part of a job keeps the invariant, lets what was marked stay marked, and marks
what it leaves under way. -/
structure Loop.Keeps (loop : Loop σ ω ι τ α μ δ) (weight : Weight τ μ)
    (invariant : σ → ω → Nat → Prop) (marks : σ → ω → Marks τ μ) : Prop where
  conserves : loop.Conserves weight
  handle : ∀ {world state input answer load}, invariant state world load →
    loop.closed state = false → loop.handle world state input = some answer →
      invariant answer.1 world (load + weight.total answer.2) ∧
        (marks state world).Implies weight load (marks answer.1 world) ∧
          ∀ effect ∈ answer.2, (marks answer.1 world).effect effect
  receive : ∀ {world state message load}, invariant state world (load + weight.message message) →
    (marks state world).message message →
      invariant (loop.receive state message).1 world
          (load + weight.total (loop.receive state message).2) ∧
        (marks state world).Implies weight load (marks (loop.receive state message).1 world) ∧
          ∀ effect ∈ (loop.receive state message).2,
            (marks (loop.receive state message).1 world).effect effect
  perform : ∀ {world state job answer next progress load}, invariant state world load →
    (marks state world).job job → loop.perform world job answer = some (next, progress) →
      invariant state next load ∧ (marks state world).Implies weight load (marks state next) ∧
        (marks state next).progress progress
  drift : ∀ {world state change next load}, invariant state world load →
    loop.drift world change = some next →
      invariant state next load ∧ (marks state world).Implies weight load (marks state next)

/-- The invariant together with the marks. -/
def Situation.Sound (weight : Weight τ μ) (invariant : σ → ω → Nat → Prop)
    (marks : σ → ω → Marks τ μ) (situation : Situation σ ω τ μ) : Prop :=
  invariant situation.state situation.world (situation.load weight) ∧
    situation.Carries (marks situation.state situation.world)

section Rule

variable {loop : Loop σ ω ι τ α μ δ} {weight : Weight τ μ} {invariant : σ → ω → Nat → Prop}
  {marks : σ → ω → Marks τ μ}

/-- One step keeps the invariant and the marks. -/
theorem Loop.Keeps.step (keeps : loop.Keeps weight invariant marks)
    {situation next : Situation σ ω τ μ} {happening : Happening ι α δ}
    (sound : situation.Sound weight invariant marks)
    (stepEq : loop.step situation happening = some next) :
    next.Sound weight invariant marks := by
  rcases sound with ⟨holds, carries⟩
  cases happening with
  | input input =>
      rcases loop.step_input stepEq with ⟨opened, answer, handled, rfl⟩
      rcases keeps.handle holds opened handled with ⟨kept, implies, marked⟩
      constructor
      · rw [situation.load_respond]
        exact kept
      · exact (carries.mono implies).respond marked
  | deliver =>
      rcases loop.step_deliver stepEq with ⟨_, message, later, waiting, rfl⟩
      rw [situation.load_deliver waiting] at holds
      rcases keeps.receive holds (carries.head waiting) with ⟨kept, implies, marked⟩
      constructor
      · rw [Situation.load_respond]
        exact kept
      · exact ((carries.tail waiting).mono implies).respond marked
  | advance position answer =>
      rcases loop.step_advance stepEq with ⟨job, world, progress, running, ran, rfl⟩
      have marked := carries.jobs job (List.mem_of_getElem? running)
      rcases keeps.perform holds marked ran with ⟨kept, implies, leaves⟩
      have settled := (carries.mono implies).settle position world leaves
      have balanced := situation.load_settle world running
        (keeps.conserves _ _ _ _ _ ran)
      rw [← balanced] at kept
      cases progress with
      | report message => exact ⟨kept, settled⟩
      | resume rest => exact ⟨kept, settled⟩
  | drift change =>
      rcases loop.step_drift stepEq with ⟨world, drifted, rfl⟩
      rcases keeps.drift holds drifted with ⟨kept, implies⟩
      have carried := carries.mono implies
      exact ⟨kept, carried.jobs, carried.mailbox⟩

/-- Every run keeps the invariant and the marks. -/
theorem Loop.Keeps.run (keeps : loop.Keeps weight invariant marks)
    {start final : Situation σ ω τ μ} {happenings : List (Happening ι α δ)}
    (sound : start.Sound weight invariant marks)
    (runEq : Transition.run loop.step start happenings = some final) :
    final.Sound weight invariant marks :=
  run_invariant (fun _ _ _ holds stepEq => keeps.step holds stepEq) sound runEq

end Rule

end Transition.EventLoop
