import LocalHold.Transition.Run
import LocalHold.Transition.Workers

/-!
# Admission and shutdown of background tasks

Three flags and a counter decide whether embedding work is admitted.  They are
read and written by calls that admit work, by the admissions those calls return
and by shutdown calls, any number of each at a time.  Every load, store and
counter update of the source is one step here, and so is a deadline that fires.
-/

namespace LocalHold

open Transition

/-! ## Shared state -/

/-- `BackgroundTasks`: the flags, the counter and the number of tracked tasks. -/
structure BackgroundTasks where
  shuttingDown : Bool
  admittedSpawnsClosed : Bool
  resetAfterAdmissionTimeout : Bool
  embedAdmissions : Nat
  tasks : Nat
deriving DecidableEq, Repr

/-- `BackgroundTasks::new_with_clock`. -/
def BackgroundTasks.new : BackgroundTasks :=
  ⟨false, false, false, 0, 0⟩

/-- `fetch_sub(1)` on a counter of 64 bits, which wraps below zero. -/
def fetchSub (count : Nat) : Nat :=
  if count = 0 then 2 ^ 64 - 1 else count - 1

/-! ## Admissions -/

/-- Where a call of `begin_embed_admission` is, and then the admission that it
returned. -/
inductive AdmissionPhase where
  /-- The first load saw no shutdown. -/
  | checked
  /-- The counter is incremented. -/
  | counted
  /-- The second load saw a shutdown. -/
  | failing
  /-- The failed call took the counter to zero and is about to notify. -/
  | failedLast
  /-- The call returned `ShuttingDown`. -/
  | refused
  /-- The call returned an admission. -/
  | admitted
  /-- The drop took the counter to zero and is about to take the reset. -/
  | droppedLast
  /-- The drop took the reset and is about to open admitted spawns. -/
  | openingSpawns
  /-- The drop is about to end the shutdown. -/
  | endingShutdown
  /-- The drop is about to notify. -/
  | notifying
  /-- The drop is complete. -/
  | dropped
deriving DecidableEq, Repr

namespace AdmissionPhase

/-- The counter has been incremented and not yet decremented. -/
def counts : AdmissionPhase → Bool
  | counted | failing | admitted => true
  | _ => false

/-- The call has returned `Ok`. -/
def granted : AdmissionPhase → Bool
  | admitted | droppedLast | openingSpawns | endingShutdown | notifying | dropped => true
  | _ => false

/-- The call or the drop has steps left. -/
def inProgress : AdmissionPhase → Bool
  | refused | dropped => false
  | _ => true

/-- The next step is `notify_waiters`. -/
def notifies : AdmissionPhase → Bool
  | failedLast | notifying => true
  | _ => false

/-- The first load of `begin_embed_admission`. -/
def start (shared : BackgroundTasks) : AdmissionPhase :=
  if shared.shuttingDown then refused else checked

/-- The next step of `begin_embed_admission` after its first load, and of
`EmbedAdmission::drop` once it has returned. -/
def step (shared : BackgroundTasks) : AdmissionPhase → Option (BackgroundTasks × AdmissionPhase)
  | checked => some ({ shared with embedAdmissions := shared.embedAdmissions + 1 }, counted)
  | counted => some (shared, if shared.shuttingDown then failing else admitted)
  | failing =>
      some ({ shared with embedAdmissions := fetchSub shared.embedAdmissions },
        if shared.embedAdmissions = 1 then failedLast else refused)
  | failedLast => some (shared, refused)
  | refused => none
  | admitted =>
      some ({ shared with embedAdmissions := fetchSub shared.embedAdmissions },
        if shared.embedAdmissions = 1 then droppedLast else dropped)
  | droppedLast =>
      some ({ shared with resetAfterAdmissionTimeout := false },
        if shared.resetAfterAdmissionTimeout then openingSpawns else notifying)
  | openingSpawns => some ({ shared with admittedSpawnsClosed := false }, endingShutdown)
  | endingShutdown => some ({ shared with shuttingDown := false }, notifying)
  | notifying => some (shared, dropped)
  | dropped => none

end AdmissionPhase

/-- `spawn_admitted`: the load of the flag and, under the same lock, the spawn. -/
def BackgroundTasks.spawnAdmitted (shared : BackgroundTasks) : BackgroundTasks :=
  if shared.admittedSpawnsClosed then shared else { shared with tasks := shared.tasks + 1 }

/-- `spawn_best_effort`. -/
def BackgroundTasks.spawnBestEffort (shared : BackgroundTasks) : BackgroundTasks :=
  if shared.shuttingDown then shared else { shared with tasks := shared.tasks + 1 }

/-! ## Shutdowns -/

/-- Where a call of `shutdown_with_cleanup` is, after its first store. -/
inductive ShutdownPhase where
  /-- About to enable the waiter. -/
  | registering
  /-- About to load the counter, after the waiter was found notified or not. -/
  | checking (alreadyNotified : Bool)
  /-- Waiting for a notification or the deadline. -/
  | waiting
  /-- The deadline fired: about to close admitted spawns. -/
  | closingSpawns
  /-- About to leave the reset to the last admission. -/
  | arming
  /-- About to take the tracked tasks. -/
  | takingTasks (admissionsDrained : Bool)
  /-- Joining the tasks that were taken. -/
  | joining (remaining : Nat)
  /-- Running the cleanup. -/
  | cleaning (admissionsDrained : Bool)
  /-- About to open admitted spawns. -/
  | openingSpawns
  /-- About to end the shutdown. -/
  | endingShutdown
  /-- The call has returned. -/
  | finished
deriving DecidableEq, Repr

namespace ShutdownPhase

/-- The call waits for admissions or tasks. -/
def draining : ShutdownPhase → Bool
  | registering | checking _ | waiting | takingTasks true | joining _ => true
  | _ => false

/-- The call has still to end the shutdown or to leave that to an admission. -/
def owesReset : ShutdownPhase → Bool
  | takingTasks false | cleaning false | finished => false
  | _ => true

/-- The call has not returned. -/
def running : ShutdownPhase → Bool
  | finished => false
  | _ => true

end ShutdownPhase

/-- A shutdown call and whether its current waiter has been notified. -/
structure Shutdown where
  phase : ShutdownPhase
  notified : Bool
deriving DecidableEq, Repr

namespace Shutdown

/-- The state after the store that starts a shutdown. -/
def start : Shutdown :=
  ⟨.registering, false⟩

/-- `notify_waiters` reaches every waiter that has been created. -/
def wake (call : Shutdown) (notify : Bool) : Shutdown :=
  { call with notified := call.notified || notify }

/-- The next step of a shutdown call other than a deadline that fires. -/
def step (shared : BackgroundTasks) (call : Shutdown) : Option (BackgroundTasks × Shutdown) :=
  match call.phase with
  | .registering => some (shared, { call with phase := .checking call.notified })
  | .checking alreadyNotified =>
      some (shared,
        if shared.embedAdmissions = 0 then { call with phase := .takingTasks true }
        else if alreadyNotified then start
        else { call with phase := .waiting })
  | .waiting => if call.notified then some (shared, start) else none
  | .closingSpawns =>
      some ({ shared with admittedSpawnsClosed := true }, { call with phase := .arming })
  | .arming =>
      some ({ shared with resetAfterAdmissionTimeout := true },
        { call with phase := .takingTasks false })
  | .takingTasks admissionsDrained =>
      some ({ shared with tasks := 0 },
        { call with phase :=
            if admissionsDrained then .joining shared.tasks else .cleaning false })
  | .joining 0 => some (shared, { call with phase := .openingSpawns })
  | .joining (remaining + 1) => some (shared, { call with phase := .joining remaining })
  | .cleaning admissionsDrained =>
      some (shared, { call with phase := if admissionsDrained then .openingSpawns else .finished })
  | .openingSpawns =>
      some ({ shared with admittedSpawnsClosed := false }, { call with phase := .endingShutdown })
  | .endingShutdown =>
      some ({ shared with shuttingDown := false }, { call with phase := .finished })
  | .finished => none

/-- The deadline fires while the call waits for admissions or tasks. -/
def deadline (call : Shutdown) : Option Shutdown :=
  match call.phase with
  | .waiting => some { call with phase := .closingSpawns }
  | .joining _ => some { call with phase := .cleaning true }
  | _ => none

end Shutdown

/-! ## Interleaved calls -/

/-- The shared state and every call that has started. -/
structure TaskWorld where
  shared : BackgroundTasks
  admissions : List AdmissionPhase
  shutdowns : List Shutdown
deriving DecidableEq, Repr

/-- One step of one call. -/
inductive TaskEvent where
  /-- A call of `begin_embed_admission` takes its first step. -/
  | beginAdmission
  /-- An admission takes its next step; one that was returned is dropped. -/
  | admission (index : Nat)
  /-- An admission that was returned spawns a task. -/
  | spawn (index : Nat)
  /-- A task is spawned without admission. -/
  | spawnBestEffort
  /-- A call of `shutdown_with_cleanup` takes its first step. -/
  | beginShutdown
  /-- A shutdown call takes its next step. -/
  | shutdown (index : Nat)
  /-- The deadline of a shutdown call fires. -/
  | deadline (index : Nat)
deriving DecidableEq, Repr

namespace TaskWorld

/-- No call has started. -/
def initial : TaskWorld :=
  ⟨.new, [], []⟩

/-- An admission moves from a phase. -/
def advanceAdmission (world : TaskWorld) (index : Nat) (phase : AdmissionPhase) :
    Option TaskWorld :=
  (phase.step world.shared).map fun moved =>
    ⟨moved.1, world.admissions.set index moved.2,
      world.shutdowns.map fun call => call.wake phase.notifies⟩

/-- A shutdown call moves. -/
def advanceShutdown (world : TaskWorld) (index : Nat) (call : Shutdown) : Option TaskWorld :=
  (call.step world.shared).map fun moved =>
    ⟨moved.1, world.admissions, world.shutdowns.set index moved.2⟩

/-- One step of one call. -/
def step (world : TaskWorld) : TaskEvent → Option TaskWorld
  | .beginAdmission =>
      some { world with
        admissions := world.admissions ++ [AdmissionPhase.start world.shared] }
  | .admission index => world.admissions[index]?.bind (world.advanceAdmission index)
  | .spawn index =>
      if world.admissions[index]? = some .admitted then
        some { world with shared := world.shared.spawnAdmitted }
      else
        none
  | .spawnBestEffort => some { world with shared := world.shared.spawnBestEffort }
  | .beginShutdown =>
      some { world with
        shared := { world.shared with shuttingDown := true }
        shutdowns := world.shutdowns ++ [Shutdown.start] }
  | .shutdown index => world.shutdowns[index]?.bind (world.advanceShutdown index)
  | .deadline index =>
      world.shutdowns[index]?.bind fun call =>
        call.deadline.map fun moved =>
          { world with shutdowns := world.shutdowns.set index moved }

/-- Some shutdown call is draining. -/
def Draining (world : TaskWorld) : Prop :=
  ∃ call ∈ world.shutdowns, call.phase.draining = true

/-- No admission is in progress and no shutdown call is running. -/
def Quiet (world : TaskWorld) : Prop :=
  (∀ phase ∈ world.admissions, phase.inProgress = false) ∧
    ∀ call ∈ world.shutdowns, call.phase.running = false

instance (world : TaskWorld) : Decidable world.Draining :=
  inferInstanceAs (Decidable (∃ call ∈ world.shutdowns, call.phase.draining = true))

instance (world : TaskWorld) : Decidable world.Quiet :=
  inferInstanceAs (Decidable (_ ∧ _))

end TaskWorld

end LocalHold
