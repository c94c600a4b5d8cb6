import LocalHold.Engine.BackgroundTasks

/-!
# What the admission gate guarantees

The counter counts the admissions that have incremented it and not yet
decremented it, in every reachable state.  The flags are only as good as their
hand-over: a shutdown that times out leaves the reset to the last admission that
drops, and any call that ends a shutdown ends it for all of them.  The guarantees
about the gate are therefore proved for the runs in which the hand-over reaches
an admission and no shutdown is ended while another one drains.
-/

namespace LocalHold

open Transition

/-! ## The counter -/

/-- The counter is the number of admissions that hold it. -/
def TaskWorld.Counted (world : TaskWorld) : Prop :=
  world.shared.embedAdmissions = world.admissions.countP AdmissionPhase.counts

theorem fetchSub_add_one {count : Nat} (positive : 0 < count) : fetchSub count + 1 = count := by
  rw [fetchSub, if_neg (Nat.ne_of_gt positive)]
  exact Nat.sub_add_cancel positive

/-- A step of an admission moves the counter as it moves the admission. -/
theorem AdmissionPhase.step_counts {shared moved : BackgroundTasks} {phase next : AdmissionPhase}
    (positive : phase.counts = true → 0 < shared.embedAdmissions)
    (stepEq : phase.step shared = some (moved, next)) :
    moved.embedAdmissions + (if phase.counts then 1 else 0) =
      shared.embedAdmissions + (if next.counts then 1 else 0) := by
  cases phase with
  | checked =>
      cases stepEq
      rfl
  | counted =>
      cases stepEq
      by_cases down : shared.shuttingDown = true
      · rw [if_pos down]
        rfl
      · rw [if_neg down]
        rfl
  | failing =>
      cases stepEq
      have left := fetchSub_add_one (positive rfl)
      by_cases last : shared.embedAdmissions = 1
      · rw [if_pos last]
        exact left
      · rw [if_neg last]
        exact left
  | failedLast =>
      cases stepEq
      rfl
  | refused => cases stepEq
  | admitted =>
      cases stepEq
      have left := fetchSub_add_one (positive rfl)
      by_cases last : shared.embedAdmissions = 1
      · rw [if_pos last]
        exact left
      · rw [if_neg last]
        exact left
  | droppedLast =>
      cases stepEq
      by_cases reset : shared.resetAfterAdmissionTimeout = true
      · rw [if_pos reset]
        rfl
      · rw [if_neg reset]
        rfl
  | openingSpawns =>
      cases stepEq
      rfl
  | endingShutdown =>
      cases stepEq
      rfl
  | notifying =>
      cases stepEq
      rfl
  | dropped => cases stepEq

/-- A shutdown call leaves the counter alone. -/
theorem Shutdown.step_embedAdmissions {shared moved : BackgroundTasks} {call next : Shutdown}
    (stepEq : call.step shared = some (moved, next)) :
    moved.embedAdmissions = shared.embedAdmissions := by
  unfold Shutdown.step at stepEq
  split at stepEq
  case h_3 =>
    split at stepEq
    · cases stepEq
      rfl
    · cases stepEq
  all_goals
    cases stepEq
    try rfl

theorem TaskWorld.counted_step {world next : TaskWorld} {event : TaskEvent}
    (counted : world.Counted) (stepEq : world.step event = some next) : next.Counted := by
  cases event with
  | beginAdmission =>
      cases stepEq
      rw [Counted, List.countP_append]
      have fresh : [AdmissionPhase.start world.shared].countP AdmissionPhase.counts = 0 := by
        rw [AdmissionPhase.start]
        split <;> rfl
      rw [fresh]
      exact counted
  | admission index =>
      obtain ⟨phase, found, moved⟩ := Option.bind_eq_some_iff.mp stepEq
      obtain ⟨⟨shared, after⟩, phaseStep, rfl⟩ := Option.map_eq_some_iff.mp moved
      have moves := countP_set_of_getElem? AdmissionPhase.counts after found
      have positive : phase.counts = true → 0 < world.shared.embedAdmissions := by
        intro counts
        rw [counted]
        exact List.countP_pos_iff.mpr ⟨phase, List.mem_of_getElem? found, counts⟩
      have shifts := AdmissionPhase.step_counts positive phaseStep
      rw [Counted] at counted ⊢
      dsimp only
      omega
  | spawn index =>
      rw [step] at stepEq
      split at stepEq
      · cases stepEq
        rw [Counted, BackgroundTasks.spawnAdmitted]
        split
        · exact counted
        · exact counted
      · cases stepEq
  | spawnBestEffort =>
      cases stepEq
      rw [Counted, BackgroundTasks.spawnBestEffort]
      split
      · exact counted
      · exact counted
  | beginShutdown =>
      cases stepEq
      exact counted
  | shutdown index =>
      obtain ⟨call, _, moved⟩ := Option.bind_eq_some_iff.mp stepEq
      obtain ⟨⟨shared, after⟩, callStep, rfl⟩ := Option.map_eq_some_iff.mp moved
      rw [Counted]
      exact (Shutdown.step_embedAdmissions callStep).trans counted
  | deadline index =>
      obtain ⟨call, _, moved⟩ := Option.bind_eq_some_iff.mp stepEq
      obtain ⟨after, _, rfl⟩ := Option.map_eq_some_iff.mp moved
      exact counted

theorem TaskWorld.counted_run {events : List TaskEvent} {world : TaskWorld}
    (runEq : run TaskWorld.step TaskWorld.initial events = some world) : world.Counted :=
  run_invariant (fun _ _ _ counted stepEq => counted_step counted stepEq)
    (show TaskWorld.initial.Counted from rfl) runEq

/-! ## The flags -/

/-- The drop has taken the reset and has still to end the shutdown. -/
def AdmissionPhase.resetting : AdmissionPhase → Bool
  | openingSpawns | endingShutdown => true
  | _ => false

theorem AdmissionPhase.resetting_iff {phase : AdmissionPhase} :
    phase.resetting = true ↔ phase = .openingSpawns ∨ phase = .endingShutdown := by
  cases phase <;> decide

/-- Every flag that is set has a call that will clear it: the reset an
admission, the closed spawns the reset or its holder, the shutdown the reset,
its holder or a shutdown call. -/
structure TaskWorld.Owned (world : TaskWorld) : Prop where
  spawns : world.shared.admittedSpawnsClosed = true →
    world.shared.resetAfterAdmissionTimeout = true ∨
      (∃ call ∈ world.shutdowns, call.phase = .arming) ∨
      ∃ phase ∈ world.admissions, phase = .openingSpawns
  gate : world.shared.shuttingDown = true →
    world.shared.resetAfterAdmissionTimeout = true ∨
      (∃ call ∈ world.shutdowns, call.phase.owesReset = true) ∨
      ∃ phase ∈ world.admissions, phase.resetting = true

/-- What a step of an admission does to the flags that others wait on. -/
theorem AdmissionPhase.step_flags {shared moved : BackgroundTasks} {phase next : AdmissionPhase}
    (stepEq : phase.step shared = some (moved, next)) :
    (moved.admittedSpawnsClosed = true →
      shared.admittedSpawnsClosed = true ∧ phase ≠ .openingSpawns) ∧
    (moved.shuttingDown = true → shared.shuttingDown = true ∧ phase ≠ .endingShutdown) ∧
    (shared.resetAfterAdmissionTimeout = true →
      moved.resetAfterAdmissionTimeout = true ∨ next = .openingSpawns) ∧
    (phase = .openingSpawns → next = .endingShutdown) := by
  cases phase with
  | droppedLast =>
      cases stepEq
      refine ⟨fun closed => ⟨closed, by decide⟩, fun down => ⟨down, by decide⟩, ?_, nofun⟩
      intro reset
      exact Or.inr (if_pos reset)
  | openingSpawns =>
      cases stepEq
      exact ⟨nofun, fun down => ⟨down, by decide⟩, Or.inl, fun _ => rfl⟩
  | endingShutdown =>
      cases stepEq
      exact ⟨fun closed => ⟨closed, by decide⟩, nofun, Or.inl, nofun⟩
  | refused => cases stepEq
  | dropped => cases stepEq
  | _ =>
      cases stepEq
      exact ⟨fun closed => ⟨closed, by decide⟩, fun down => ⟨down, by decide⟩, Or.inl, nofun⟩

theorem TaskWorld.owned_admission {world next : TaskWorld} {index : Nat}
    (owned : world.Owned) (stepEq : world.step (.admission index) = some next) : next.Owned := by
  obtain ⟨phase, found, moved⟩ := Option.bind_eq_some_iff.mp stepEq
  obtain ⟨⟨shared, after⟩, phaseStep, rfl⟩ := Option.map_eq_some_iff.mp moved
  obtain ⟨spawns, gate, reset, opened⟩ := AdmissionPhase.step_flags phaseStep
  have woken : ∀ fact : ShutdownPhase → Prop,
      (∃ call ∈ world.shutdowns, fact call.phase) →
        ∃ call ∈ world.shutdowns.map (fun call => call.wake phase.notifies), fact call.phase := by
    rintro fact ⟨call, callMem, holds⟩
    exact ⟨call.wake phase.notifies, List.mem_map_of_mem callMem, holds⟩
  constructor
  · intro closed
    obtain ⟨wasClosed, other⟩ := spawns closed
    rcases owned.spawns wasClosed with armed | arming | opening
    · rcases reset armed with still | taken
      · exact Or.inl still
      · exact Or.inr (Or.inr (exists_set_new found taken))
    · exact Or.inr (Or.inl (woken (· = .arming) arming))
    · exact Or.inr (Or.inr (exists_set_of_exists found other opening))
  · intro down
    obtain ⟨wasDown, other⟩ := gate down
    rcases owned.gate wasDown with armed | owing | resetting
    · rcases reset armed with still | taken
      · exact Or.inl still
      · exact Or.inr (Or.inr (exists_set_new found (by rw [taken]; rfl)))
    · exact Or.inr (Or.inl (woken (·.owesReset = true) owing))
    · by_cases opening : phase = .openingSpawns
      · exact Or.inr (Or.inr (exists_set_new found (by rw [opened opening]; rfl)))
      · refine Or.inr (Or.inr (exists_set_of_exists found ?_ resetting))
        rw [AdmissionPhase.resetting_iff]
        exact not_or.mpr ⟨opening, other⟩

/-- What a step of a shutdown call does to the flags. -/
theorem Shutdown.step_flags {shared moved : BackgroundTasks} {call next : Shutdown}
    (stepEq : call.step shared = some (moved, next)) :
    (moved.admittedSpawnsClosed = true →
      shared.admittedSpawnsClosed = true ∨ next.phase = .arming) ∧
    (moved.shuttingDown = true → shared.shuttingDown = true) ∧
    (shared.resetAfterAdmissionTimeout = true → moved.resetAfterAdmissionTimeout = true) ∧
    (call.phase = .arming → moved.resetAfterAdmissionTimeout = true) ∧
    (call.phase.owesReset = true → next.phase.owesReset = true ∨
      moved.resetAfterAdmissionTimeout = true ∨ moved.shuttingDown = false) := by
  obtain ⟨phase, notified⟩ := call
  cases phase with
  | registering =>
      cases stepEq
      exact ⟨Or.inl, id, id, nofun, fun _ => Or.inl rfl⟩
  | checking alreadyNotified =>
      cases stepEq
      refine ⟨Or.inl, id, id, nofun, fun _ => Or.inl ?_⟩
      split
      · rfl
      · split
        · rfl
        · rfl
  | waiting =>
      cases notified with
      | false => cases stepEq
      | true =>
          cases stepEq
          exact ⟨Or.inl, id, id, nofun, fun _ => Or.inl rfl⟩
  | closingSpawns =>
      cases stepEq
      exact ⟨fun _ => Or.inr rfl, id, id, nofun, fun _ => Or.inl rfl⟩
  | arming =>
      cases stepEq
      exact ⟨Or.inl, id, fun _ => rfl, fun _ => rfl, fun _ => Or.inr (Or.inl rfl)⟩
  | takingTasks admissionsDrained =>
      cases stepEq
      refine ⟨Or.inl, id, id, nofun, fun owes => Or.inl ?_⟩
      cases admissionsDrained with
      | false => cases owes
      | true => rfl
  | joining remaining =>
      cases remaining with
      | zero =>
          cases stepEq
          exact ⟨Or.inl, id, id, nofun, fun _ => Or.inl rfl⟩
      | succ remaining =>
          cases stepEq
          exact ⟨Or.inl, id, id, nofun, fun _ => Or.inl rfl⟩
  | cleaning admissionsDrained =>
      cases stepEq
      refine ⟨Or.inl, id, id, nofun, fun owes => Or.inl ?_⟩
      cases admissionsDrained with
      | false => cases owes
      | true => rfl
  | openingSpawns =>
      cases stepEq
      exact ⟨nofun, id, id, nofun, fun _ => Or.inl rfl⟩
  | endingShutdown =>
      cases stepEq
      exact ⟨Or.inl, nofun, id, nofun, fun _ => Or.inr (Or.inr rfl)⟩
  | finished => cases stepEq

theorem TaskWorld.owned_shutdown {world next : TaskWorld} {index : Nat}
    (owned : world.Owned) (stepEq : world.step (.shutdown index) = some next) : next.Owned := by
  obtain ⟨call, found, moved⟩ := Option.bind_eq_some_iff.mp stepEq
  obtain ⟨⟨shared, after⟩, callStep, rfl⟩ := Option.map_eq_some_iff.mp moved
  obtain ⟨spawns, gate, reset, arms, owes⟩ := Shutdown.step_flags callStep
  constructor
  · intro closed
    rcases spawns closed with wasClosed | arming
    · rcases owned.spawns wasClosed with armed | arming | opening
      · exact Or.inl (reset armed)
      · by_cases here : call.phase = .arming
        · exact Or.inl (arms here)
        · exact Or.inr (Or.inl (exists_set_of_exists found here arming))
      · exact Or.inr (Or.inr opening)
    · exact Or.inr (Or.inl (exists_set_new found arming))
  · intro down
    rcases owned.gate (gate down) with armed | owing | resetting
    · exact Or.inl (reset armed)
    · by_cases here : call.phase.owesReset = true
      · rcases owes here with still | armed | ended
        · exact Or.inr (Or.inl (exists_set_new found still))
        · exact Or.inl armed
        · dsimp only at down
          rw [ended] at down
          cases down
      · exact Or.inr (Or.inl (exists_set_of_exists found here owing))
    · exact Or.inr (Or.inr resetting)

/-- A deadline fires while the call drains and keeps its duties. -/
theorem Shutdown.deadline_phases {call next : Shutdown} (stepEq : call.deadline = some next) :
    call.phase ≠ .arming ∧ call.phase.draining = true ∧ next.phase.owesReset = true := by
  unfold Shutdown.deadline at stepEq
  split at stepEq
  case h_1 phaseEq =>
    cases stepEq
    rw [phaseEq]
    exact ⟨by decide, rfl, rfl⟩
  case h_2 phaseEq =>
    cases stepEq
    rw [phaseEq]
    exact ⟨nofun, rfl, rfl⟩
  case h_3 => cases stepEq

theorem TaskWorld.owned_step {world next : TaskWorld} {event : TaskEvent}
    (owned : world.Owned) (stepEq : world.step event = some next) : next.Owned := by
  cases event with
  | beginAdmission =>
      cases stepEq
      constructor
      · intro closed
        rcases owned.spawns closed with armed | arming | ⟨phase, phaseMem, opening⟩
        · exact Or.inl armed
        · exact Or.inr (Or.inl arming)
        · exact Or.inr (Or.inr ⟨phase, List.mem_append_left _ phaseMem, opening⟩)
      · intro down
        rcases owned.gate down with armed | owing | ⟨phase, phaseMem, resetting⟩
        · exact Or.inl armed
        · exact Or.inr (Or.inl owing)
        · exact Or.inr (Or.inr ⟨phase, List.mem_append_left _ phaseMem, resetting⟩)
  | admission index => exact owned_admission owned stepEq
  | spawn index =>
      rw [step] at stepEq
      split at stepEq
      · cases stepEq
        rw [BackgroundTasks.spawnAdmitted]
        split
        · exact owned
        · exact ⟨owned.spawns, owned.gate⟩
      · cases stepEq
  | spawnBestEffort =>
      cases stepEq
      rw [BackgroundTasks.spawnBestEffort]
      split
      · exact owned
      · exact ⟨owned.spawns, owned.gate⟩
  | beginShutdown =>
      cases stepEq
      constructor
      · intro closed
        rcases owned.spawns closed with armed | ⟨call, callMem, arming⟩ | opening
        · exact Or.inl armed
        · exact Or.inr (Or.inl ⟨call, List.mem_append_left _ callMem, arming⟩)
        · exact Or.inr (Or.inr opening)
      · intro _
        refine Or.inr (Or.inl ⟨Shutdown.start, ?_, rfl⟩)
        exact List.mem_append_right _ List.mem_cons_self
  | shutdown index => exact owned_shutdown owned stepEq
  | deadline index =>
      obtain ⟨call, found, moved⟩ := Option.bind_eq_some_iff.mp stepEq
      obtain ⟨after, fired, rfl⟩ := Option.map_eq_some_iff.mp moved
      obtain ⟨notArming, _, owes⟩ := Shutdown.deadline_phases fired
      constructor
      · intro closed
        rcases owned.spawns closed with armed | arming | opening
        · exact Or.inl armed
        · exact Or.inr (Or.inl (exists_set_of_exists found notArming arming))
        · exact Or.inr (Or.inr opening)
      · intro _
        exact Or.inr (Or.inl (exists_set_new found owes))

/-! ## Orderly runs -/

/-- Some admission is about to take the reset, or the counter will still be
taken to zero. -/
def TaskWorld.Reaches (world : TaskWorld) (count : Nat) : Prop :=
  count < world.shared.embedAdmissions ∨ ∃ phase ∈ world.admissions, phase = .droppedLast

instance (world : TaskWorld) (count : Nat) : Decidable (world.Reaches count) :=
  inferInstanceAs (Decidable (_ ∨ _))

/-- The step does not miss the hand-over.  A shutdown that timed out leaves the
reset while an admission can take it, a failed call that takes the counter to
zero does not strand it, and no call ends the shutdown while another one
drains. -/
def TaskWorld.Orderly (world : TaskWorld) : TaskEvent → Prop
  | .admission index =>
      (world.admissions[index]? = some .failing →
        world.shared.resetAfterAdmissionTimeout = true → world.Reaches 1) ∧
      (world.admissions[index]? = some .endingShutdown → ¬ world.Draining)
  | .shutdown index =>
      ∀ call ∈ world.shutdowns[index]?,
        (call.phase = .arming → world.Reaches 0) ∧
        (call.phase = .endingShutdown → ¬ world.Draining)
  | _ => True

instance (world : TaskWorld) (event : TaskEvent) : Decidable (world.Orderly event) :=
  match event with
  | .admission _ => inferInstanceAs (Decidable (_ ∧ _))
  | .shutdown index => inferInstanceAs (Decidable (∀ call ∈ world.shutdowns[index]?, _ ∧ _))
  | .beginAdmission => isTrue trivial
  | .spawn _ => isTrue trivial
  | .spawnBestEffort => isTrue trivial
  | .beginShutdown => isTrue trivial
  | .deadline _ => isTrue trivial

/-- What orderly runs keep: a reset that was left reaches an admission, and the
gate stays shut while a shutdown call drains. -/
structure TaskWorld.Guarding (world : TaskWorld) : Prop where
  armed : world.shared.resetAfterAdmissionTimeout = true → world.Reaches 0
  shut : world.Draining → world.shared.shuttingDown = true

/-- What a step of an admission leaves of the hand-over. -/
theorem AdmissionPhase.step_reaches {shared moved : BackgroundTasks} {phase next : AdmissionPhase}
    (stepEq : phase.step shared = some (moved, next))
    (armed : moved.resetAfterAdmissionTimeout = true) :
    shared.resetAfterAdmissionTimeout = true ∧ phase ≠ .droppedLast ∧
      (phase ≠ .failing → 0 < shared.embedAdmissions →
        0 < moved.embedAdmissions ∨ next = .droppedLast) ∧
      (1 < shared.embedAdmissions → 0 < moved.embedAdmissions) := by
  have fewer : ∀ {count : Nat}, 1 < count → 0 < fetchSub count := by
    intro count more
    rw [fetchSub, if_neg (by omega)]
    omega
  cases phase with
  | checked =>
      cases stepEq
      exact ⟨armed, by decide, fun _ _ => Or.inl (Nat.succ_pos _), fun _ => Nat.succ_pos _⟩
  | failing =>
      cases stepEq
      exact ⟨armed, by decide, fun other => absurd rfl other, fewer⟩
  | admitted =>
      cases stepEq
      refine ⟨armed, by decide, fun _ positive => ?_, fewer⟩
      by_cases last : shared.embedAdmissions = 1
      · exact Or.inr (if_pos last)
      · exact Or.inl (fewer (by omega))
  | droppedLast =>
      cases stepEq
      cases armed
  | refused => cases stepEq
  | dropped => cases stepEq
  | _ =>
      cases stepEq
      exact ⟨armed, by decide, fun _ => Or.inl, Nat.lt_trans Nat.zero_lt_one⟩

theorem TaskWorld.guarding_admission {world next : TaskWorld} {index : Nat}
    (guarding : world.Guarding) (orderly : world.Orderly (.admission index))
    (stepEq : world.step (.admission index) = some next) : next.Guarding := by
  obtain ⟨phase, found, moved⟩ := Option.bind_eq_some_iff.mp stepEq
  obtain ⟨⟨shared, after⟩, phaseStep, rfl⟩ := Option.map_eq_some_iff.mp moved
  constructor
  · intro armed
    obtain ⟨wasArmed, notLast, passes, fewer⟩ := AdmissionPhase.step_reaches phaseStep armed
    by_cases fails : phase = .failing
    · rcases orderly.1 (by rw [found, fails]) wasArmed with more | last
      · exact Or.inl (fewer more)
      · exact Or.inr (exists_set_of_exists found notLast last)
    · rcases guarding.armed wasArmed with positive | last
      · rcases passes fails positive with still | taken
        · exact Or.inl still
        · exact Or.inr (exists_set_new found taken)
      · exact Or.inr (exists_set_of_exists found notLast last)
  · rintro ⟨woken, wokenMem, drains⟩
    obtain ⟨call, callMem, rfl⟩ := List.mem_map.mp wokenMem
    have draining : world.Draining := ⟨call, callMem, drains⟩
    have down := guarding.shut draining
    cases phase with
    | endingShutdown => exact absurd draining (orderly.2 found)
    | refused => cases phaseStep
    | dropped => cases phaseStep
    | _ =>
        cases phaseStep
        exact down

/-- What a step of a shutdown call does to the hand-over and to the gate. -/
theorem Shutdown.step_guards {shared moved : BackgroundTasks} {call next : Shutdown}
    (stepEq : call.step shared = some (moved, next)) :
    (moved.resetAfterAdmissionTimeout = true →
      shared.resetAfterAdmissionTimeout = true ∨ call.phase = .arming) ∧
    (shared.shuttingDown = true → moved.shuttingDown = true ∨ call.phase = .endingShutdown) ∧
    (next.phase.draining = true → call.phase.draining = true) := by
  obtain ⟨phase, notified⟩ := call
  cases phase with
  | registering =>
      cases stepEq
      exact ⟨Or.inl, Or.inl, fun _ => rfl⟩
  | checking alreadyNotified =>
      cases stepEq
      exact ⟨Or.inl, Or.inl, fun _ => rfl⟩
  | waiting =>
      cases notified with
      | false => cases stepEq
      | true =>
          cases stepEq
          exact ⟨Or.inl, Or.inl, fun _ => rfl⟩
  | closingSpawns =>
      cases stepEq
      exact ⟨Or.inl, Or.inl, nofun⟩
  | arming =>
      cases stepEq
      exact ⟨fun _ => Or.inr rfl, Or.inl, nofun⟩
  | takingTasks admissionsDrained =>
      cases stepEq
      cases admissionsDrained with
      | false => exact ⟨Or.inl, Or.inl, nofun⟩
      | true => exact ⟨Or.inl, Or.inl, fun _ => rfl⟩
  | joining remaining =>
      cases remaining with
      | zero =>
          cases stepEq
          exact ⟨Or.inl, Or.inl, fun _ => rfl⟩
      | succ remaining =>
          cases stepEq
          exact ⟨Or.inl, Or.inl, fun _ => rfl⟩
  | cleaning admissionsDrained =>
      cases stepEq
      cases admissionsDrained with
      | false => exact ⟨Or.inl, Or.inl, nofun⟩
      | true => exact ⟨Or.inl, Or.inl, nofun⟩
  | openingSpawns =>
      cases stepEq
      exact ⟨Or.inl, Or.inl, nofun⟩
  | endingShutdown =>
      cases stepEq
      exact ⟨Or.inl, fun _ => Or.inr rfl, nofun⟩
  | finished => cases stepEq

theorem TaskWorld.guarding_shutdown {world next : TaskWorld} {index : Nat}
    (guarding : world.Guarding) (orderly : world.Orderly (.shutdown index))
    (stepEq : world.step (.shutdown index) = some next) : next.Guarding := by
  obtain ⟨call, found, moved⟩ := Option.bind_eq_some_iff.mp stepEq
  obtain ⟨⟨shared, after⟩, callStep, rfl⟩ := Option.map_eq_some_iff.mp moved
  obtain ⟨arms, ends, drains⟩ := Shutdown.step_guards callStep
  have sameCount := Shutdown.step_embedAdmissions callStep
  constructor
  · intro armed
    have reaches : world.Reaches 0 := by
      rcases arms armed with wasArmed | arming
      · exact guarding.armed wasArmed
      · exact (orderly call found).1 arming
    rw [Reaches]
    dsimp only
    rw [sameCount]
    exact reaches
  · intro draining
    have wasDraining : world.Draining := by
      rcases exists_of_exists_set draining with here | elsewhere
      · exact ⟨call, List.mem_of_getElem? found, drains here⟩
      · exact elsewhere
    rcases ends (guarding.shut wasDraining) with still | ending
    · exact still
    · exact absurd wasDraining ((orderly call found).2 ending)

theorem TaskWorld.guarding_step {world next : TaskWorld} {event : TaskEvent}
    (guarding : world.Guarding) (orderly : world.Orderly event)
    (stepEq : world.step event = some next) : next.Guarding := by
  cases event with
  | beginAdmission =>
      cases stepEq
      refine ⟨fun armed => ?_, guarding.shut⟩
      rcases guarding.armed armed with positive | ⟨phase, phaseMem, last⟩
      · exact Or.inl positive
      · exact Or.inr ⟨phase, List.mem_append_left _ phaseMem, last⟩
  | admission index => exact guarding_admission guarding orderly stepEq
  | spawn index =>
      rw [step] at stepEq
      split at stepEq
      · cases stepEq
        rw [BackgroundTasks.spawnAdmitted]
        split
        · exact guarding
        · exact ⟨guarding.armed, guarding.shut⟩
      · cases stepEq
  | spawnBestEffort =>
      cases stepEq
      rw [BackgroundTasks.spawnBestEffort]
      split
      · exact guarding
      · exact ⟨guarding.armed, guarding.shut⟩
  | beginShutdown =>
      cases stepEq
      exact ⟨guarding.armed, fun _ => rfl⟩
  | shutdown index => exact guarding_shutdown guarding orderly stepEq
  | deadline index =>
      obtain ⟨call, found, moved⟩ := Option.bind_eq_some_iff.mp stepEq
      obtain ⟨after, fired, rfl⟩ := Option.map_eq_some_iff.mp moved
      refine ⟨guarding.armed, fun draining => guarding.shut ?_⟩
      rcases exists_of_exists_set draining with here | elsewhere
      · refine ⟨call, List.mem_of_getElem? found, ?_⟩
        exact (Shutdown.deadline_phases fired).2.1
      · exact elsewhere

/-! ## The contract of the gate -/

/-- A call that starts while a shutdown drains is refused. -/
def RefusesWhileDraining (events : List TaskEvent) (world : TaskWorld) : Prop :=
  ∀ early late before, events = early ++ .beginAdmission :: late →
    run TaskWorld.step TaskWorld.initial early = some before → before.Draining →
    ∀ phase, world.admissions[before.admissions.length]? = some phase → phase.granted = false

/-- With no call in progress every flag is clear and the next admission
succeeds. -/
def TaskWorld.RecoversWhenQuiet (world : TaskWorld) : Prop :=
  world.Quiet →
    (world.shared.shuttingDown = false ∧ world.shared.admittedSpawnsClosed = false ∧
      world.shared.resetAfterAdmissionTimeout = false) ∧
    ∃ next, run TaskWorld.step world
        [.beginAdmission, .admission world.admissions.length,
          .admission world.admissions.length] = some next ∧
      next.admissions[world.admissions.length]? = some .admitted

theorem TaskWorld.refused_step {world next : TaskWorld} {event : TaskEvent} {position : Nat}
    (refused : world.admissions[position]? = some .refused)
    (stepEq : world.step event = some next) :
    next.admissions[position]? = some .refused := by
  cases event with
  | beginAdmission =>
      cases stepEq
      obtain ⟨bound, _⟩ := List.getElem?_eq_some_iff.mp refused
      rw [List.getElem?_append_left bound]
      exact refused
  | admission index =>
      obtain ⟨phase, found, moved⟩ := Option.bind_eq_some_iff.mp stepEq
      obtain ⟨⟨shared, after⟩, phaseStep, rfl⟩ := Option.map_eq_some_iff.mp moved
      have different : index ≠ position := by
        rintro rfl
        rw [refused] at found
        cases found
        cases phaseStep
      dsimp only
      rw [List.getElem?_set_ne different]
      exact refused
  | spawn index =>
      rw [step] at stepEq
      split at stepEq
      · cases stepEq
        exact refused
      · cases stepEq
  | spawnBestEffort =>
      cases stepEq
      exact refused
  | beginShutdown =>
      cases stepEq
      exact refused
  | shutdown index =>
      obtain ⟨call, _, moved⟩ := Option.bind_eq_some_iff.mp stepEq
      obtain ⟨_, _, rfl⟩ := Option.map_eq_some_iff.mp moved
      exact refused
  | deadline index =>
      obtain ⟨call, _, moved⟩ := Option.bind_eq_some_iff.mp stepEq
      obtain ⟨_, _, rfl⟩ := Option.map_eq_some_iff.mp moved
      exact refused

theorem TaskWorld.guarding_initial : TaskWorld.initial.Guarding := by
  constructor
  · intro armed
    cases armed
  · rintro ⟨call, callMem, _⟩
    exact absurd callMem List.not_mem_nil

theorem TaskWorld.owned_run {events : List TaskEvent} {world : TaskWorld}
    (runEq : run TaskWorld.step TaskWorld.initial events = some world) : world.Owned := by
  have start : TaskWorld.initial.Owned := ⟨nofun, nofun⟩
  exact run_invariant (fun _ _ _ owned stepEq => owned_step owned stepEq) start runEq

theorem TaskWorld.guarding_run {events : List TaskEvent} {world : TaskWorld}
    (orderly : Guarded TaskWorld.step TaskWorld.Orderly TaskWorld.initial events)
    (runEq : run TaskWorld.step TaskWorld.initial events = some world) : world.Guarding :=
  run_invariant_of_guarded
    (fun _ _ _ guarding allowed stepEq => guarding_step guarding allowed stepEq)
    orderly guarding_initial runEq

theorem refusesWhileDraining_of_orderly {events : List TaskEvent} {world : TaskWorld}
    (orderly : Guarded TaskWorld.step TaskWorld.Orderly TaskWorld.initial events)
    (runEq : run TaskWorld.step TaskWorld.initial events = some world) :
    RefusesWhileDraining events world := by
  intro early late before split earlyRun draining phase found
  subst split
  have guarding := TaskWorld.guarding_run orderly.of_append earlyRun
  have down := guarding.shut draining
  obtain ⟨middle, middleRun, rest⟩ := run_append_eq_some_iff.mp runEq
  rw [earlyRun] at middleRun
  cases middleRun
  obtain ⟨started, startEq, lateRun⟩ := run_cons_eq_some_iff.mp rest
  cases startEq
  have refused : (before.admissions ++
      [AdmissionPhase.start before.shared])[before.admissions.length]? = some .refused := by
    rw [List.getElem?_concat_length, AdmissionPhase.start, if_pos down]
  have kept := run_invariant (fun _ _ _ => TaskWorld.refused_step) refused lateRun
  rw [kept] at found
  cases found
  rfl

theorem AdmissionPhase.inProgress_eq_false_iff {phase : AdmissionPhase} :
    phase.inProgress = false ↔ phase = .refused ∨ phase = .dropped := by
  cases phase <;> decide

theorem ShutdownPhase.running_eq_false_iff {phase : ShutdownPhase} :
    phase.running = false ↔ phase = .finished := by
  cases phase <;> simp [ShutdownPhase.running]

theorem TaskWorld.Quiet.counter_eq_zero {world : TaskWorld} (quiet : world.Quiet)
    (counted : world.Counted) : world.shared.embedAdmissions = 0 := by
  rw [counted]
  apply List.countP_eq_zero.mpr
  intro phase phaseMem counts
  rcases AdmissionPhase.inProgress_eq_false_iff.mp (quiet.1 phase phaseMem) with rfl | rfl
  · cases counts
  · cases counts

theorem TaskWorld.recovers_of_guarding {world : TaskWorld} (counted : world.Counted)
    (owned : world.Owned) (guarding : world.Guarding) : world.RecoversWhenQuiet := by
  intro quiet
  have idle : ∀ phase ∈ world.admissions, phase = .refused ∨ phase = .dropped :=
    fun phase phaseMem => AdmissionPhase.inProgress_eq_false_iff.mp (quiet.1 phase phaseMem)
  have returned : ∀ call ∈ world.shutdowns, call.phase = .finished :=
    fun call callMem => ShutdownPhase.running_eq_false_iff.mp (quiet.2 call callMem)
  have notArmed : world.shared.resetAfterAdmissionTimeout = false := by
    rw [← Bool.not_eq_true]
    intro armed
    rcases guarding.armed armed with positive | ⟨phase, phaseMem, rfl⟩
    · rw [quiet.counter_eq_zero counted] at positive
      exact Nat.lt_irrefl 0 positive
    · rcases idle _ phaseMem with other | other <;> cases other
  have notClosed : world.shared.admittedSpawnsClosed = false := by
    rw [← Bool.not_eq_true]
    intro closed
    rcases owned.spawns closed with armed | ⟨call, callMem, arming⟩ | ⟨phase, phaseMem, rfl⟩
    · rw [notArmed] at armed
      cases armed
    · rw [returned call callMem] at arming
      cases arming
    · rcases idle _ phaseMem with other | other <;> cases other
  have notDown : world.shared.shuttingDown = false := by
    rw [← Bool.not_eq_true]
    intro down
    rcases owned.gate down with armed | ⟨call, callMem, owing⟩ | ⟨phase, phaseMem, resetting⟩
    · rw [notArmed] at armed
      cases armed
    · rw [returned call callMem] at owing
      cases owing
    · rcases idle phase phaseMem with rfl | rfl <;> cases resetting
  refine ⟨⟨notDown, notClosed, notArmed⟩, ?_⟩
  obtain ⟨⟨down, closed, armed, count, tasks⟩, admissions, shutdowns⟩ := world
  cases notDown
  simp [run, TaskWorld.step, TaskWorld.advanceAdmission, AdmissionPhase.start,
    AdmissionPhase.step]

/-- The counter is right in every run, and in every orderly run no call that
starts while a shutdown drains is granted and the gate is open again once every
call has returned. -/
theorem admissions_and_shutdowns {events : List TaskEvent} {world : TaskWorld}
    (runEq : run TaskWorld.step TaskWorld.initial events = some world) :
    world.Counted ∧
      (Guarded TaskWorld.step TaskWorld.Orderly TaskWorld.initial events →
        RefusesWhileDraining events world ∧ world.RecoversWhenQuiet) := by
  have counted := TaskWorld.counted_run runEq
  refine ⟨counted, fun orderly => ⟨refusesWhileDraining_of_orderly orderly runEq, ?_⟩⟩
  exact TaskWorld.recovers_of_guarding counted (TaskWorld.owned_run runEq)
    (TaskWorld.guarding_run orderly runEq)

/-- A shutdown times out, leaves the reset to an admission, and the admission
drops. -/
def timedOutAndRecovered : List TaskEvent :=
  [.beginAdmission, .admission 0, .admission 0, .beginShutdown, .shutdown 0, .shutdown 0,
    .deadline 0, .shutdown 0, .shutdown 0, .shutdown 0, .shutdown 0, .admission 0, .admission 0,
    .admission 0, .admission 0, .admission 0]

theorem admissions_and_shutdowns_recovered :
    ∃ world, run TaskWorld.step TaskWorld.initial timedOutAndRecovered = some world ∧
      Guarded TaskWorld.step TaskWorld.Orderly TaskWorld.initial timedOutAndRecovered ∧
      world.Quiet ∧ world.shared.shuttingDown = false ∧ world.shared.embedAdmissions = 0 := by
  have ran : ∃ world, run TaskWorld.step TaskWorld.initial timedOutAndRecovered = some world ∧
      world.Quiet := ⟨_, rfl, by decide⟩
  obtain ⟨world, runEq, quiet⟩ := ran
  have orderly : Guarded TaskWorld.step TaskWorld.Orderly TaskWorld.initial
      timedOutAndRecovered := by decide
  obtain ⟨counted, holds⟩ := admissions_and_shutdowns runEq
  obtain ⟨⟨notDown, _⟩, _⟩ := (holds orderly).2 quiet
  exact ⟨world, runEq, orderly, quiet, notDown, quiet.counter_eq_zero counted⟩

/-- The last admission drops after the deadline of a shutdown and before the
shutdown leaves the reset. -/
def droppedBeforeHandOver : List TaskEvent :=
  [.beginAdmission, .admission 0, .admission 0, .beginShutdown, .shutdown 0, .shutdown 0,
    .deadline 0, .admission 0, .admission 0, .admission 0, .shutdown 0, .shutdown 0, .shutdown 0,
    .shutdown 0]

/-- A call that fails takes the counter to zero after the hand-over. -/
def failedAfterHandOver : List TaskEvent :=
  [.beginAdmission, .admission 0, .admission 0, .beginAdmission, .beginShutdown, .admission 1,
    .shutdown 0, .shutdown 0, .deadline 0, .shutdown 0, .shutdown 0, .shutdown 0, .shutdown 0,
    .admission 1, .admission 0, .admission 1, .admission 1]

/-- A second shutdown finds nothing to drain and ends while the first one joins
a task. -/
def overlappingShutdowns : List TaskEvent :=
  [.spawnBestEffort, .beginShutdown, .shutdown 0, .shutdown 0, .shutdown 0, .beginShutdown,
    .shutdown 1, .shutdown 1, .shutdown 1, .shutdown 1, .shutdown 1, .shutdown 1]

theorem admissions_and_shutdowns_broken :
    (∃ world, run TaskWorld.step TaskWorld.initial droppedBeforeHandOver = some world ∧
      ¬ world.RecoversWhenQuiet) ∧
    (∃ world, run TaskWorld.step TaskWorld.initial failedAfterHandOver = some world ∧
      ¬ world.RecoversWhenQuiet) ∧
    ∃ world, run TaskWorld.step TaskWorld.initial
        (overlappingShutdowns ++ [.beginAdmission, .admission 0, .admission 0]) = some world ∧
      ¬ RefusesWhileDraining
        (overlappingShutdowns ++ [.beginAdmission, .admission 0, .admission 0]) world := by
  have stuck : ∀ world : TaskWorld, world.Quiet → world.shared.shuttingDown = true →
      ¬ world.RecoversWhenQuiet := by
    intro world quiet down recovers
    rw [(recovers quiet).1.1] at down
    cases down
  refine ⟨⟨_, rfl, stuck _ (by decide) rfl⟩, ⟨_, rfl, stuck _ (by decide) rfl⟩, _, rfl, ?_⟩
  intro refuses
  have granted := refuses overlappingShutdowns _ _ rfl rfl (by decide) .admitted rfl
  cases granted

end LocalHold
