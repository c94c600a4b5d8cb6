import LocalHold.Ui.Delivery

/-!
# What a mutation hits

A save and a deletion are optimistic writes, and the store remembers every
database it has been.  What the store applies is therefore the change that is
on the screen, to the memory that is on the screen, as it was read.
-/

namespace LocalHold

open Transition Transition.EventLoop

/-! ## Tasks as store commands -/

/-- The store command of a task that writes. -/
def DataTask.call (task : DataTask) (handle : StoreHandle) (now : Instant) : Option StoreCall :=
  match task with
  | .save id expectedRevision edit principal _ =>
      some (saveCall handle now id expectedRevision edit principal)
  | .delete id expectedRevision principal _ =>
      some (deleteCall handle now id expectedRevision principal)
  | .list .. | .search .. | .catalog .. | .refreshDetail .. => none

/-- The mode in which a mutation is asked for. -/
def DataTask.mode : DataTask → Mode
  | .delete .. => .confirmDelete
  | .save .. | .refreshDetail .. => .edit
  | .list .. | .search .. | .catalog .. => .browse

/-- A part of a task leaves the store alone or is one step of it. -/
theorem performTask_step [Host] {timeline next : Timeline} {task : DataTask} {answer : TaskAnswer}
    {progress : PartResult DataTask DataMsg}
    (ran : performTask timeline task answer = some (next, progress)) :
    next = timeline ∨ ∃ call db, storeStep timeline.present call = some db ∧
      next = timeline.commit db := by
  unfold performTask at ran
  split at ran
  case h_7 id expectedRevision edit principal generation handle now =>
    have saved := Option.some.inj ran
    unfold performSave at saved
    split at saved
    · cases saved
      exact .inl rfl
    · rename_i result db wrote
      cases saved
      right
      refine ⟨saveCall handle now id expectedRevision edit principal, db, ?_, rfl⟩
      exact storeStep_of_ok rfl rfl wrote
  case h_10 id expectedRevision principal generation handle now =>
    have deleted := Option.some.inj ran
    unfold performDelete at deleted
    split at deleted
    · cases deleted
      exact .inl rfl
    · rename_i outcome db wrote
      cases deleted
      right
      refine ⟨deleteCall handle now id expectedRevision principal, db, ?_, rfl⟩
      exact storeStep_of_ok rfl rfl wrote
  case h_11 => cases ran
  all_goals
    cases ran
    exact .inl rfl

/-- A task that writes runs its store command. -/
theorem performTask_wrote [Host] {timeline next : Timeline} {task : DataTask}
    {handle : StoreHandle} {now : Instant} {call : StoreCall}
    {progress : PartResult DataTask DataMsg} (asks : task.call handle now = some call)
    (ran : performTask timeline task (.wrote handle now) = some (next, progress)) :
    storeStep timeline.present call = some next.present := by
  cases task with
  | list | search | catalog | refreshDetail => cases asks
  | save id expectedRevision edit principal generation =>
      cases asks
      have saved : performSave timeline handle now id expectedRevision edit principal generation =
        (next, progress) := Option.some.inj ran
      unfold performSave at saved
      split at saved
      · rename_i error failed
        cases saved
        exact storeStep_of_error rfl ⟨error, Txn.bind_of_error failed⟩
      · rename_i result db wrote
        cases saved
        exact storeStep_of_ok rfl rfl wrote
  | delete id expectedRevision principal generation =>
      cases asks
      have deleted : performDelete timeline now id expectedRevision principal generation =
        (next, progress) := Option.some.inj ran
      unfold performDelete at deleted
      split at deleted
      · rename_i error failed
        cases deleted
        exact storeStep_of_error rfl ⟨error, Txn.bind_of_error failed⟩
      · rename_i outcome db wrote
        cases deleted
        exact storeStep_of_ok rfl rfl wrote

/-! ## The store as it has been -/

/-- Every earlier database led soundly to the present one. -/
def Timeline.Chained [Host] (timeline : Timeline) : Prop :=
  ∀ moment ∈ timeline.moments, Sound moment timeline.present

theorem chained_commit [Host] {timeline : Timeline} {db : Db} (chained : timeline.Chained)
    (sound : Sound timeline.present db) : (timeline.commit db).Chained := by
  intro moment happened
  rcases List.mem_cons.mp happened with rfl | earlier
  · exact Std.Refl.refl moment
  · exact IsTrans.trans _ _ _ (chained moment earlier) sound

section Sessions

variable [AppHost] {moment : UiMoment}

theorem chained_step {next : UiMoment} {happening : UiHappening} (chained : moment.world.Chained)
    (stepEq : uiLoop.step moment happening = some next) : next.world.Chained := by
  cases happening with
  | input input =>
      rcases uiLoop.step_input stepEq with ⟨_, answer, _, rfl⟩
      exact chained
  | deliver =>
      rcases uiLoop.step_deliver stepEq with ⟨_, message, later, _, rfl⟩
      exact chained
  | advance position answer =>
      rcases uiLoop.step_advance stepEq with ⟨task, world, progress, _, ran, rfl⟩
      have kept : world.Chained := by
        rcases performTask_step ran with rfl | ⟨call, db, stepped, rfl⟩
        · exact chained
        · exact chained_commit chained (storeStep_sound stepped)
      cases progress with
      | report message => exact kept
      | resume rest => exact kept
  | drift call =>
      rcases uiLoop.step_drift stepEq with ⟨world, drifted, rfl⟩
      have stepped : (storeStep moment.world.present call).map moment.world.commit = some world :=
        drifted
      rcases Option.map_eq_some_iff.mp stepped with ⟨db, storeStepped, rfl⟩
      exact chained_commit chained (storeStep_sound storeStepped)

theorem UiMoment.Reached.chained (reached : moment.Reached) : moment.world.Chained := by
  rcases reached with ⟨principal, engine, db, happenings, ran⟩
  have start : (UiMoment.start principal engine db).world.Chained := by
    intro moment happened
    rw [List.mem_singleton.mp happened]
    exact Std.Refl.refl db
  have kept : ∀ (moment : UiMoment) happening next, moment.world.Chained →
      uiLoop.step moment happening = some next → next.world.Chained :=
    fun _ _ _ chained stepEq => chained_step chained stepEq
  exact run_invariant kept start ran

omit [AppHost] in
/-- A memory that was read in full carries the revision of its row. -/
theorem revision_of_getMemory {db : Db} {id : MemoryId} {caller : Option String} {now : Instant}
    {memory : Memory} (found : db.getMemory id caller now = some memory)
    (plain : memory.wasRedacted = false) :
    ∃ view, db.view id = some view ∧ view.recordRevision = memory.recordRevision := by
  unfold Db.getMemory at found
  split at found
  · cases found
  · rename_i row present
    refine ⟨_, by rw [Db.view, present]; rfl, ?_⟩
    split at found
    · cases found
    · unfold Memory.applyAccessPolicy at found
      split at found
      · cases found
        rfl
      · cases found
        cases plain
      · cases found

omit [AppHost] in
/-- An applied write names the memory and the revision of its task. -/
theorem named_of_appliesTo {task : DataTask} {handle : StoreHandle} {now : Instant}
    {call : StoreCall} {id : MemoryId} {expected : Int} {db : Db} [Host]
    (asks : task.call handle now = some call) (applies : call.appliesTo id expected db = true) :
    (∃ edit principal generation, task = .save id expected edit principal generation) ∨
      ∃ principal generation, task = .delete id expected principal generation := by
  cases task with
  | list | search | catalog | refreshDetail => cases asks
  | save target revision edit principal generation =>
      cases asks
      rcases Bool.and_eq_true_iff.mp applies with ⟨named, _⟩
      rcases of_decide_eq_true named with ⟨rfl, rfl⟩
      exact .inl ⟨edit, principal, generation, rfl⟩
  | delete target revision principal generation =>
      cases asks
      rcases Bool.and_eq_true_iff.mp applies with ⟨named, _⟩
      rcases of_decide_eq_true named with ⟨rfl, rfl⟩
      exact .inr ⟨principal, generation, rfl⟩

/-- The memory on the screen is the one that an applied write changes, and the
store still holds it as it was read. -/
theorem shown_of_mutates {mode : Mode} {id : MemoryId} {expected : Int} {principal : String}
    {generation : Nat} {view : MemoryView} (reached : moment.Reached)
    (mutates : moment.state.Mutates mode id expected principal generation)
    (modes : mode = .edit ∨ mode = .confirmDelete)
    (present : moment.world.present.view id = some view) (current : view.recordRevision = expected) :
    ∃ detail principal, moment.state.detail = some detail ∧
      moment.state.principal = some principal ∧ detail.memory.id = id ∧
        detail.memory.recordRevision = expected ∧ detail.memory.wasRedacted = false ∧
          detail.memory.hasWriteAccess principal = true ∧
            ∃ shown ∈ moment.world.moments, (∃ readAt,
              shown.getMemory id (some principal) readAt = some detail.memory) ∧
                Db.UnchangedAt id shown moment.world.present := by
  have consistent := reached.sound.1
  rcases mutates.shown with ⟨detail, opened, rfl, rfl⟩
  have writable : moment.state.front.Writable ∧
      ∃ other, moment.state.front.detail = some other ∧
        other.Fits (moment.world.Read moment.state.principal) := by
    have front := consistent.front
    unfold Front.Shows at front
    rcases modes with rfl | rfl
    · rw [show moment.state.front.mode = .edit from mutates.operates.mode] at front
      exact ⟨front.writable, front.detail⟩
    · rw [show moment.state.front.mode = .confirmDelete from mutates.operates.mode] at front
      exact ⟨front.2, front.1.detail⟩
  rcases writable with ⟨⟨first, name, firstOpened, named, plain, writes⟩, other, otherOpened, fits⟩
  cases firstOpened.symm.trans (show moment.state.front.detail = some detail from opened)
  cases otherOpened.symm.trans (show moment.state.front.detail = some detail from opened)
  cases named.symm.trans (show moment.state.front.principal = some principal from mutates.principal)
  rcases fits.read plain with ⟨shown, happened, now, found⟩
  refine ⟨detail, principal, opened, mutates.principal, rfl, rfl, plain, writes, shown, happened,
    ⟨now, ?_⟩, ?_⟩
  · rw [mutates.principal] at found
    exact found
  · rcases revision_of_getMemory found plain with ⟨old, oldView, oldRevision⟩
    exact (reached.chained shown happened).unchangedAt (Std.Refl.refl _) oldView present
      (oldRevision.trans current.symm)

/-- What the store applies of a session's mutations is what the screen shows:
the memory of the open detail, still as it was read, by its own principal, and
for a save the edit that the open draft reads as. -/
theorem mutation_hits_shown {next : UiMoment} {position : Nat} {task : DataTask}
    {handle : StoreHandle} {now : Instant} {call : StoreCall} {id : MemoryId} {expected : Int}
    (reached : moment.Reached) (running : moment.jobs[position]? = some task)
    (asks : task.call handle now = some call)
    (stepEq : uiLoop.step moment (.advance position (.wrote handle now)) = some next)
    (applies : call.appliesTo id expected moment.world.present = true) :
    storeStep moment.world.present call = some next.world.present ∧
      moment.state.mode = task.mode ∧
      (∀ edit principal generation, task = .save id expected edit principal generation →
        ∃ draft, moment.state.edit = some draft ∧ draft.parse = .ok edit) ∧
      ∃ detail principal, moment.state.detail = some detail ∧
        moment.state.principal = some principal ∧ detail.memory.id = id ∧
          detail.memory.recordRevision = expected ∧ detail.memory.wasRedacted = false ∧
            detail.memory.hasWriteAccess principal = true ∧
              ∃ shown ∈ moment.world.moments, (∃ readAt,
                shown.getMemory id (some principal) readAt = some detail.memory) ∧
                  Db.UnchangedAt id shown moment.world.present := by
  have stepped : storeStep moment.world.present call = some next.world.present := by
    rcases uiLoop.step_advance stepEq with ⟨other, world, progress, started, ran, rfl⟩
    cases running.symm.trans started
    have wrote := performTask_wrote asks ran
    cases progress with
    | report message => exact wrote
    | resume rest => exact wrote
  rcases StoreCall.view_of_appliesTo applies with ⟨view, present, current⟩
  have marked := reached.sound.2.jobs task (List.mem_of_getElem? running)
  rcases named_of_appliesTo asks applies with
    ⟨edit, principal, generation, rfl⟩ | ⟨principal, generation, rfl⟩
  · rcases marked with ⟨mutates, drafts⟩
    refine ⟨stepped, mutates.operates.mode, ?_, ?_⟩
    · intro other _ _ same
      cases same
      exact drafts
    · exact shown_of_mutates reached mutates (.inl rfl) present current
  · have mutates : moment.state.Mutates .confirmDelete id expected principal generation := marked
    refine ⟨stepped, mutates.operates.mode, ?_, ?_⟩
    · intro _ _ _ same
      cases same
    · exact shown_of_mutates reached mutates (.inr rfl) present current

end Sessions

/-- The owner confirms a deletion, and the store applies it. -/
theorem mutation_hits_shown_deletion :
    ∃ moment next : UiMoment,
      @storeStep asciiHost moment.world.present (deleteCall ⟨1, none⟩ 1 ⟨1⟩ 0 "owner") =
          some next.world.present ∧
        moment.state.mode = .confirmDelete ∧
          ∃ shown ∈ moment.world.moments, Db.UnchangedAt ⟨1⟩ shown moment.world.present := by
  have deletes : ∃ moment next,
      afterSession [pressed (.char 'd'), pressed (.char 'y')] = some moment ∧
        moment.jobs[0]? = some (.delete ⟨1⟩ 0 "owner" 1) ∧
          (@uiLoop asciiAppHost).step moment (.advance 0 (.wrote ⟨1, none⟩ 1)) = some next ∧
            @StoreCall.appliesTo asciiHost (deleteCall ⟨1, none⟩ 1 ⟨1⟩ 0 "owner") ⟨1⟩ 0
              moment.world.present = true := ⟨_, _, rfl, rfl, rfl, rfl⟩
  rcases deletes with ⟨moment, next, reaches, running, stepEq, applies⟩
  rcases @mutation_hits_shown asciiAppHost moment next 0 (.delete ⟨1⟩ 0 "owner" 1) ⟨1, none⟩ 1 _
    ⟨1⟩ 0 (reached_afterSession reaches) running rfl stepEq applies with
    ⟨stepped, mode, _, detail, principal, _, _, _, _, _, _, shown, happened, _, unchanged⟩
  exact ⟨moment, next, stepped, mode, shown, happened, unchanged⟩

end LocalHold
