import LocalHold.Ui.Consistency

/-!
# What a session keeps

Every handler, every part of a task and every foreign write keeps the agreement
between the screen and what is under way, so every moment that a session
reaches has it.
-/

namespace LocalHold

open Transition Transition.EventLoop

/-! ## Keys -/

section Keys

variable [AppHost] {timeline : Timeline} {app : App} {engine : EngineAnswers}

/-- A key, or any other event, while nothing is pending. -/
theorem settled_onEvent {answer : App × DataEffects} {event : TerminalEvent}
    (front : app.front.Shows (timeline.Read app.principal)) (idle : app.pending = false)
    (unclosed : app.quit = false) (lists : app.lists.Fit)
    (answers : timeline.Answers app.principal engine)
    (handled : app.onEvent engine event = .ok answer) : Settled timeline answer := by
  unfold App.onEvent at handled
  split at handled
  · cases handled
    exact Settled.of_still front lists idle
  rename_i key
  split at handled
  case isFalse =>
    cases handled
    exact Settled.of_still front lists idle
  split at handled
  · cases handled
    unfold App.requestQuit
    split
    · exact Settled.of_still front lists idle
    · exact Settled.of_still front lists idle
  unfold App.onKey at handled
  have shows := front
  unfold Front.Shows at shows
  split at handled <;> rename_i mode <;>
    rw [show app.front.mode = _ from mode] at shows <;> dsimp only at shows
  · cases handled
    exact settled_keyBrowse shows mode lists answers key
  · exact settled_keySearch shows mode lists handled
  · exact settled_keyDetail shows.1 mode idle lists handled
  · exact settled_keyEdit shows mode idle unclosed lists handled
  · cases handled
    exact settled_keyConfirmDelete shows.1 shows.2 mode idle unclosed lists key
  · cases handled
    exact settled_keyConfirmDiscard shows.1 mode idle lists key
  · cases handled
    rcases shows with ⟨managing, manager, opened, closed⟩
    exact settled_keyContextManager managing mode opened closed lists key
  · rcases shows with ⟨managing, named, manager, edit, caret, opened, edited, shown⟩
    exact settled_keyContextManagerEdit ⟨managing, named, opened, edited, caret, shown⟩ mode lists
      handled
  · cases handled
    rcases shows with ⟨managing, named, manager, edit, caret, opened, edited, shown⟩
    exact settled_keyConfirmContextDiscard ⟨managing, named, opened, edited, caret, shown⟩ mode
      lists key

/-- A key, or any other event, while a mutation is pending: nothing but the
status line changes. -/
theorem onEvent_of_pending {answer : App × DataEffects} {event : TerminalEvent}
    {read : Memory → Prop} (front : app.front.Shows read) (pending : app.pending = true)
    (handled : app.onEvent engine event = .ok answer) :
    ∃ status, answer = ({ app with status }, []) := by
  have modes : app.mode = .edit ∨ app.mode = .confirmDelete := front.mode_of_pending pending
  unfold App.onEvent at handled
  split at handled
  · cases handled
    exact ⟨app.status, rfl⟩
  rename_i key
  split at handled
  case isFalse =>
    cases handled
    exact ⟨app.status, rfl⟩
  split at handled
  · cases handled
    rw [App.requestQuit, if_pos pending]
    exact ⟨_, rfl⟩
  rcases modes with mode | mode
  · simp only [App.onKey, mode, App.keyEdit, pending, if_true] at handled
    cases handled
    exact ⟨app.status, rfl⟩
  · simp only [App.onKey, mode, App.keyConfirmDelete, pending, if_true] at handled
    cases handled
    exact ⟨app.status, rfl⟩

end Keys

/-! ## Messages -/

/-- A message that is no outcome of a mutation leaves the overlays as they
are. -/
structure Aside (app : App) (answer : App × DataEffects) : Prop where
  front : answer.1.front = app.front
  operation : answer.1.operationGeneration = app.operationGeneration
  quit : answer.1.quit = app.quit
  lists : answer.1.lists.Fit
  weightless : Weightless answer.2

section Messages

variable [AppHost] {timeline : Timeline} {app : App}

omit [AppHost] in
theorem aside_still (lists : app.lists.Fit) : Aside app (app, []) :=
  ⟨rfl, rfl, rfl, lists, weightless_nil⟩

omit [AppHost] in
/-- Rows, catalogs and failures, whether they are taken or stale. -/
theorem aside_onData {message : DataMsg} (lists : app.lists.Fit)
    (weightless : mutationWeight.message message = 0) : Aside app (app.onData message) := by
  cases message with
  | rows rows mode generation =>
      simp only [App.onData]
      split
      · refine ⟨rfl, rfl, rfl, ?_, weightless_nil⟩
        refine ⟨?_, ?_, lists.contextCursor, lists.selected, lists.selectable⟩
        · intro row present
          rcases List.mem_map.mp present with ⟨original, _, rfl⟩
          exact fits_sanitizeRowForView original
        · simp only [App.lists, App.applyRows, List.length_map]
          exact Nat.min_le_right _ _
      · exact aside_still lists
  | contextCatalog records policy total warning generation =>
      have applied := lists.applyContextCatalog records policy (some total) warning
      simp only [App.onData]
      split
      · split
        · exact ⟨rfl, rfl, rfl, applied, weightless_refresh _⟩
        · exact ⟨rfl, rfl, rfl, applied, weightless_nil⟩
      · exact aside_still lists
  | contextCatalogFailed text generation =>
      simp only [App.onData]
      split
      · exact ⟨rfl, rfl, rfl, lists, weightless_nil⟩
      · exact aside_still lists
  | failed text generation =>
      simp only [App.onData]
      split
      · exact ⟨rfl, rfl, rfl, lists, weightless_nil⟩
      · exact aside_still lists
  | updated | updatedInvisible | updatedUnrefreshed | missing | deleted | mutationFailed =>
      cases weightless

omit [AppHost] in
theorem fits_replaceRow {memory : Memory} {rows : List Row}
    (sanitized : memory.sanitizeForWire = memory) (fit : ∀ row ∈ rows, row.Fits) :
    ∀ row ∈ App.replaceRow memory rows, row.Fits := by
  induction rows with
  | nil => exact fit
  | cons row rest inductionHypothesis =>
      rcases List.forall_mem_cons.mp fit with ⟨first, later⟩
      unfold App.replaceRow
      split
      · exact List.forall_mem_cons.mpr ⟨⟨sanitized, fun _ => rfl⟩, later⟩
      · exact List.forall_mem_cons.mpr ⟨first, inductionHypothesis later⟩

omit [AppHost] in
theorem length_replaceRow (memory : Memory) (rows : List Row) :
    (App.replaceRow memory rows).length = rows.length := by
  induction rows with
  | nil => rfl
  | cons row rest inductionHypothesis =>
      unfold App.replaceRow
      split
      · rfl
      · rw [List.length_cons, List.length_cons, inductionHypothesis]

/-- The memory of the draft has been saved and read back. -/
theorem settled_applyUpdatedMemory {memory : Memory} (metadata : Option MemoryMetadata)
    (audit : List AuditEntry) (contexts : List ContextDescriptor)
    (refreshWarning : Option String)
    (wasRead : memory.wasRedacted = false → timeline.Read app.principal memory)
    (managers : app.contextManager = none) (lists : app.lists.Fit) :
    Settled timeline
      (app.applyUpdatedMemory memory metadata audit contexts refreshWarning) := by
  have shown : (⟨memory.sanitizeForWire,
      if memory.sanitizeForWire.wasRedacted then none else metadata,
      if memory.sanitizeForWire.wasRedacted then App.redactAudit audit else audit,
      contexts, 0⟩ : Detail).Fits (timeline.Read app.principal) := by
    apply fits_detail _ _ _ _ wasRead
    · intro redacted
      rw [Memory.wasRedacted_sanitizeForWire, redacted]
      rfl
    · intro redacted
      rw [Memory.wasRedacted_sanitizeForWire, redacted]
      exact redacted_redactAudit audit
  have fit : ({ app.lists with rows := App.replaceRow memory.sanitizeForWire app.rows } :
      Lists).Fit := by
    refine ⟨?_, ?_, lists.contextCursor, lists.selected, lists.selectable⟩
    · exact fits_replaceRow (Memory.sanitizeForWire_sanitizeForWire memory) lists.rows
    · dsimp only
      rw [length_replaceRow]
      exact lists.rowSelected
  unfold App.applyUpdatedMemory
  dsimp only
  split
  · apply Settled.of_still
    · exact ⟨⟨⟨_, rfl, shown⟩, rfl, managers⟩, rfl⟩
    · exact fit
    · rfl
  · apply settled_refresh
    · exact ⟨⟨⟨_, rfl, shown⟩, rfl, managers⟩, rfl⟩
    · exact fit
    · rfl

/-- The memory of the draft or of the confirmation is gone. -/
theorem settled_removeMemoryFromView (id : MemoryId) (status : Status) (refreshCatalog : Bool)
    (managers : app.contextManager = none) (lists : app.lists.Fit) :
    Settled timeline (app.removeMemoryFromView id status refreshCatalog) := by
  have fit : ({ app.lists with
      rows := app.rows.filter fun row => row.memory.id != id
      rowSelected := min app.rowSelected
        ((app.rows.filter fun row => row.memory.id != id).length - 1) } : Lists).Fit := by
    refine ⟨?_, Nat.min_le_right _ _, lists.contextCursor, lists.selected, lists.selectable⟩
    intro row present
    exact lists.rows row (List.mem_of_mem_filter present)
  unfold App.removeMemoryFromView
  dsimp only
  split
  · apply settled_refreshContextCatalog
    · exact ⟨rfl, rfl, rfl, managers⟩
    · exact fit
    · rfl
  · apply Settled.of_still
    · exact ⟨rfl, rfl, rfl, managers⟩
    · exact fit
    · rfl

omit [AppHost] in
/-- A mutation is under way only over an overlay without a context manager. -/
theorem manager_of_pending {read : Memory → Prop} (front : app.front.Shows read)
    (pending : app.pending = true) : app.contextManager = none := by
  have mode : app.front.mode = .edit ∨ app.front.mode = .confirmDelete :=
    front.mode_of_pending pending
  unfold Front.Shows at front
  rcases mode with mode | mode
  · rw [mode] at front
    exact front.contextManager
  · rw [mode] at front
    exact front.1.contextManager

/-- A mutation was refused: its overlay stays, and a confirmation falls back to
the detail. -/
theorem settled_mutationFailed (text : String)
    (front : app.front.Shows (timeline.Read app.principal)) (pending : app.pending = true)
    (lists : app.lists.Fit) :
    Settled timeline ({ app with
      pending := false
      status := .notHeld text
      mode := if app.mode = .confirmDelete then .detail else app.mode }, []) := by
  have modes : app.mode = .edit ∨ app.mode = .confirmDelete := front.mode_of_pending pending
  unfold Front.Shows at front
  rcases modes with mode | mode
  · rw [show app.front.mode = .edit from mode] at front
    simp only [mode, reduceCtorEq, if_false]
    apply Settled.of_still
    · exact ⟨front.detail, front.edit, front.contextManager, front.writable⟩
    · exact lists
    · rfl
  · rw [show app.front.mode = .confirmDelete from mode] at front
    simp only [mode, if_true]
    apply Settled.of_still
    · exact ⟨⟨front.1.detail, front.1.edit, front.1.contextManager⟩, rfl⟩
    · exact lists
    · rfl

/-- The outcome of the mutation under way is taken. -/
theorem settled_onData {message : DataMsg} (front : app.front.Shows (timeline.Read app.principal))
    (pending : app.pending = true) (lists : app.lists.Fit)
    (mutation : mutationWeight.message message = 1)
    (marked : (app.marks timeline).message message) : Settled timeline (app.onData message) := by
  have managers := manager_of_pending front pending
  cases message with
  | rows | contextCatalog | contextCatalogFailed | failed => cases mutation
  | updated memory metadata audit contexts refreshWarning generation =>
      rcases marked with ⟨operates, wasRead⟩
      simp only [App.onData, operates.generation, if_true]
      exact settled_applyUpdatedMemory metadata audit contexts refreshWarning wasRead managers
        lists
  | updatedInvisible id generation =>
      have operates : app.Operates .edit generation := marked
      simp only [App.onData, operates.generation, if_true]
      exact settled_removeMemoryFromView id _ true managers lists
  | updatedUnrefreshed id text generation =>
      have operates : app.Operates .edit generation := marked
      simp only [App.onData, operates.generation, if_true]
      exact settled_removeMemoryFromView id _ false managers lists
  | missing id generation =>
      have current : generation = app.operationGeneration := marked
      simp only [App.onData, current, if_true]
      exact settled_removeMemoryFromView id _ true managers lists
  | deleted id generation =>
      have operates : app.Operates .confirmDelete generation := marked
      simp only [App.onData, operates.generation, if_true]
      exact settled_removeMemoryFromView id _ true managers lists
  | mutationFailed text generation =>
      have current : generation = app.operationGeneration := marked
      simp only [App.onData, current, if_true]
      exact settled_mutationFailed text front pending lists

end Messages

/-! ## Tasks and other writers -/

/-- A store that goes on remembers what was read of it. -/
def Timeline.Continues (timeline next : Timeline) : Prop :=
  ∀ moment ∈ timeline.moments, moment ∈ next.moments

theorem Timeline.continues_refl (timeline : Timeline) : timeline.Continues timeline :=
  fun _ happened => happened

theorem Timeline.continues_commit (timeline : Timeline) (next : Db) :
    timeline.Continues (timeline.commit next) :=
  fun _ happened => List.mem_cons_of_mem next happened

theorem Timeline.Read.continues {timeline next : Timeline} {principal : Option String}
    {memory : Memory} (read : timeline.Read principal memory)
    (continues : timeline.Continues next) : next.Read principal memory := by
  rcases read with ⟨moment, happened, now, found⟩
  exact ⟨moment, continues moment happened, now, found⟩

section Marking

variable [AppHost] {timeline later : Timeline} {app next : App}

omit [AppHost] in
theorem App.Operates.of_front {mode : Mode} {generation : Nat}
    (operates : app.Operates mode generation) (front : next.front = app.front)
    (operation : next.operationGeneration = app.operationGeneration) :
    next.Operates mode generation :=
  ⟨(congrArg Front.mode front).trans operates.mode, operates.generation.trans operation.symm⟩

omit [AppHost] in
theorem App.Mutates.of_front {mode : Mode} {id : MemoryId} {revision : Int} {principal : String}
    {generation : Nat} (mutates : app.Mutates mode id revision principal generation)
    (front : next.front = app.front)
    (operation : next.operationGeneration = app.operationGeneration) :
    next.Mutates mode id revision principal generation := by
  rcases mutates.shown with ⟨detail, opened, sameId, sameRevision⟩
  constructor
  · exact mutates.operates.of_front front operation
  · exact (congrArg Front.principal front).trans mutates.principal
  · exact ⟨detail, (congrArg Front.detail front).trans opened, sameId, sameRevision⟩

/-- A state with the same overlays and the same operation marks the same, and
marks stay when the store goes on. -/
theorem implies_of_front (weight : Weight DataTask DataMsg) (load : Nat)
    (front : next.front = app.front)
    (operation : next.operationGeneration = app.operationGeneration)
    (continues : timeline.Continues later) :
    (app.marks timeline).Implies weight load (next.marks later) := by
  have principal : next.principal = app.principal := congrArg Front.principal front
  constructor
  · intro task _ marked
    cases task with
    | list | search | catalog => trivial
    | save =>
        rcases marked with ⟨mutates, draft, drafted, reads⟩
        exact ⟨mutates.of_front front operation, draft,
          (congrArg Front.edit front).trans drafted, reads⟩
    | refreshDetail =>
        exact ⟨App.Operates.of_front marked.1 front operation, principal.trans marked.2⟩
    | delete => exact App.Mutates.of_front marked front operation
  · intro message _ marked
    cases message with
    | rows | failed | contextCatalog | contextCatalogFailed => trivial
    | updated =>
        refine ⟨App.Operates.of_front marked.1 front operation, ?_⟩
        intro plain
        rw [principal]
        exact (marked.2 plain).continues continues
    | updatedInvisible => exact App.Operates.of_front marked front operation
    | updatedUnrefreshed => exact App.Operates.of_front marked front operation
    | missing => exact Eq.trans marked operation.symm
    | deleted => exact App.Operates.of_front marked front operation
    | mutationFailed => exact Eq.trans marked operation.symm

/-- With nothing under way, nothing needs a mark. -/
theorem implies_of_idle : (app.marks timeline).Implies mutationWeight 0 (next.marks later) := by
  constructor
  · intro task light _
    cases task with
    | list | search | catalog => trivial
    | save | refreshDetail | delete => cases light
  · intro message light _
    cases message with
    | rows | failed | contextCatalog | contextCatalogFailed => trivial
    | updated | updatedInvisible | updatedUnrefreshed | missing | deleted | mutationFailed =>
        cases light

omit [AppHost] in
theorem App.Consistent.continues {load : Nat} (consistent : app.Consistent timeline load)
    (continues : timeline.Continues later) : app.Consistent later load :=
  ⟨consistent.front.mono fun _ read => read.continues continues, consistent.lists,
    consistent.balanced, consistent.unclosed⟩

end Marking

section Tasks

theorem refreshUpdatedDetail_cases (engine : EngineAnswers) (id : MemoryId) (generation : Nat) :
    (∃ memory metadata audit contexts warning, engine.getMemory id = .ok (some memory) ∧
        refreshUpdatedDetail engine id generation =
          .updated memory metadata audit contexts warning generation) ∨
      refreshUpdatedDetail engine id generation = .updatedInvisible id generation ∨
      ∃ message, refreshUpdatedDetail engine id generation =
        .updatedUnrefreshed id message generation := by
  unfold refreshUpdatedDetail
  split
  · rename_i memory found
    exact .inl ⟨memory, _, _, _, _, found, rfl⟩
  · exact .inr (.inl rfl)
  · exact .inr (.inr ⟨_, rfl⟩)

theorem catalogMessage_weight (engine : EngineAnswers) (generation : Nat) :
    mutationWeight.message (catalogMessage engine generation) = 0 := by
  unfold catalogMessage
  split <;> rfl

theorem refreshUpdatedDetail_weight (engine : EngineAnswers) (id : MemoryId) (generation : Nat) :
    mutationWeight.message (refreshUpdatedDetail engine id generation) = 1 := by
  rcases refreshUpdatedDetail_cases engine id generation with
    ⟨_, _, _, _, _, _, answered⟩ | answered | ⟨_, answered⟩ <;> rw [answered] <;> rfl

/-- What a save leaves: the present store with a refusal, or a later one. -/
theorem performSave_cases [Host] (timeline : Timeline) (handle : StoreHandle) (now : Instant)
    (id : MemoryId) (expectedRevision : Int) (edit : ParsedEdit) (principal : String)
    (generation : Nat) :
    timeline.Continues
        (performSave timeline handle now id expectedRevision edit principal generation).1 ∧
      ((∃ message, (performSave timeline handle now id expectedRevision edit principal
            generation).2 = .report (.mutationFailed message generation)) ∨
        (performSave timeline handle now id expectedRevision edit principal generation).2 =
          .resume (.refreshDetail id principal generation) ∨
        (performSave timeline handle now id expectedRevision edit principal generation).2 =
          .report (.missing id generation)) := by
  unfold performSave
  split
  · exact ⟨timeline.continues_refl, .inl ⟨_, rfl⟩⟩
  · refine ⟨timeline.continues_commit _, ?_⟩
    dsimp only
    split
    · exact .inr (.inl rfl)
    · exact .inr (.inr rfl)
    · exact .inl ⟨_, rfl⟩

/-- What a deletion leaves. -/
theorem performDelete_cases (timeline : Timeline) (now : Instant) (id : MemoryId)
    (expectedRevision : Int) (principal : String) (generation : Nat) :
    timeline.Continues
        (performDelete timeline now id expectedRevision principal generation).1 ∧
      ((∃ message, (performDelete timeline now id expectedRevision principal generation).2 =
            .report (.mutationFailed message generation)) ∨
        (performDelete timeline now id expectedRevision principal generation).2 =
          .report (.deleted id generation) ∨
        (performDelete timeline now id expectedRevision principal generation).2 =
          .report (.missing id generation)) := by
  unfold performDelete
  split
  · exact ⟨timeline.continues_refl, .inl ⟨_, rfl⟩⟩
  · refine ⟨timeline.continues_commit _, ?_⟩
    dsimp only
    split
    · exact .inr (.inl rfl)
    · exact .inr (.inr rfl)
    · exact .inl ⟨_, rfl⟩

variable [AppHost]

/-- One part of a task: the store goes on, the weight stays, and what it leaves
is marked when the part was. -/
structure Performed (timeline next : Timeline) (task : DataTask)
    (progress : PartResult DataTask DataMsg) : Prop where
  continues : timeline.Continues next
  weight : mutationWeight.progress progress = mutationWeight.job task
  marked : ∀ app : App, (app.marks timeline).job task → (app.marks next).progress progress

theorem performed_refreshDetail (timeline : Timeline) (engine : EngineAnswers) (now : Instant)
    (id : MemoryId) (principal : String) (generation : Nat) :
    Performed timeline timeline (.refreshDetail id principal generation)
      (.report (refreshUpdatedDetail (engine.over timeline.present (some principal) now) id
        generation)) := by
  constructor
  · exact timeline.continues_refl
  · exact refreshUpdatedDetail_weight _ id generation
  · rintro app ⟨operates, named⟩
    have answers := answers_over timeline (some principal) engine now
    generalize engine.over timeline.present (some principal) now = reading at answers
    rcases refreshUpdatedDetail_cases reading id generation with
      ⟨memory, metadata, audit, contexts, warning, found, answered⟩ | answered | ⟨text, answered⟩
    · rw [answered]
      refine ⟨operates, fun _ => ?_⟩
      rw [named]
      exact (answers id memory found).2
    · rw [answered]
      exact operates
    · rw [answered]
      exact operates

theorem performed_save (timeline : Timeline) (handle : StoreHandle) (now : Instant)
    (id : MemoryId) (expectedRevision : Int) (edit : ParsedEdit) (principal : String)
    (generation : Nat) :
    Performed timeline
      (performSave timeline handle now id expectedRevision edit principal generation).1
      (.save id expectedRevision edit principal generation)
      (performSave timeline handle now id expectedRevision edit principal generation).2 := by
  rcases performSave_cases timeline handle now id expectedRevision edit principal generation with
    ⟨continues, ⟨text, left⟩ | left | left⟩
  · rw [left]
    exact ⟨continues, rfl, fun app marked => marked.1.operates.generation⟩
  · rw [left]
    exact ⟨continues, rfl, fun app marked => ⟨marked.1.operates, marked.1.principal⟩⟩
  · rw [left]
    exact ⟨continues, rfl, fun app marked => marked.1.operates.generation⟩

theorem performed_delete (timeline : Timeline) (now : Instant) (id : MemoryId)
    (expectedRevision : Int) (principal : String) (generation : Nat) :
    Performed timeline (performDelete timeline now id expectedRevision principal generation).1
      (.delete id expectedRevision principal generation)
      (performDelete timeline now id expectedRevision principal generation).2 := by
  rcases performDelete_cases timeline now id expectedRevision principal generation with
    ⟨continues, ⟨text, left⟩ | left | left⟩
  · rw [left]
    exact ⟨continues, rfl, fun app mutates => mutates.operates.generation⟩
  · rw [left]
    exact ⟨continues, rfl, fun app mutates => mutates.operates⟩
  · rw [left]
    exact ⟨continues, rfl, fun app mutates => mutates.operates.generation⟩

theorem performed {timeline next : Timeline} {task : DataTask} {answer : TaskAnswer}
    {progress : PartResult DataTask DataMsg}
    (ran : performTask timeline task answer = some (next, progress)) :
    Performed timeline next task progress := by
  unfold performTask at ran
  split at ran
  case h_1 | h_2 | h_3 | h_4 =>
    cases ran
    exact ⟨timeline.continues_refl, rfl, fun _ _ => trivial⟩
  case h_5 =>
    cases ran
    refine ⟨timeline.continues_refl, catalogMessage_weight _ _, fun app _ => ?_⟩
    unfold catalogMessage
    split <;> trivial
  case h_6 =>
    cases ran
    exact ⟨timeline.continues_refl, rfl, fun app marked => marked.1.operates.generation⟩
  case h_9 =>
    cases ran
    exact ⟨timeline.continues_refl, rfl, fun app mutates => mutates.operates.generation⟩
  case h_7 id expectedRevision edit principal generation handle now =>
    have saved := performed_save timeline handle now id expectedRevision edit principal generation
    rw [Option.some.inj ran] at saved
    exact saved
  case h_8 =>
    cases ran
    exact performed_refreshDetail timeline _ _ _ _ _
  case h_10 id expectedRevision principal generation _ now =>
    have deleted := performed_delete timeline now id expectedRevision principal generation
    rw [Option.some.inj ran] at deleted
    exact deleted
  case h_11 => cases ran

end Tasks

/-! ## Sessions -/

section Sessions

variable [AppHost]

theorem onEvent_of_handle {timeline : Timeline} {app : App} {input : UiInput}
    {answer : App × DataEffects} (handled : uiLoop.handle timeline app input = some answer) :
    app.onEvent (input.engine.over timeline.present app.principal input.now) input.event =
      .ok answer := by
  have taken : (app.onEvent (input.engine.over timeline.present app.principal input.now)
      input.event).toOption = some answer := handled
  cases ran : app.onEvent (input.engine.over timeline.present app.principal input.now)
      input.event with
  | error panic =>
      rw [ran] at taken
      cases taken
  | ok other =>
      rw [ran] at taken
      rw [Option.some.inj taken]

/-- What a settled answer leaves when nothing was under way. -/
theorem Settled.keeps {timeline : Timeline} {answer : App × DataEffects} {app : App}
    (settled : Settled timeline answer) :
    answer.1.Consistent timeline (0 + mutationWeight.total answer.2) ∧
      (app.marks timeline).Implies mutationWeight 0 (answer.1.marks timeline) ∧
        ∀ effect ∈ answer.2, (answer.1.marks timeline).effect effect := by
  refine ⟨⟨settled.front, settled.lists, ?_, settled.unclosed⟩, implies_of_idle, settled.marked⟩
  rw [Nat.zero_add]
  exact settled.balanced

/-- What a message aside leaves, whatever is under way. -/
theorem Aside.keeps {timeline : Timeline} {app : App} {answer : App × DataEffects} {load : Nat}
    (aside : Aside app answer) (consistent : app.Consistent timeline load) :
    answer.1.Consistent timeline (load + mutationWeight.total answer.2) ∧
      (app.marks timeline).Implies mutationWeight load (answer.1.marks timeline) ∧
        ∀ effect ∈ answer.2, (answer.1.marks timeline).effect effect := by
  have principal : answer.1.principal = app.principal := congrArg Front.principal aside.front
  have pending : answer.1.pending = app.pending := congrArg Front.pending aside.front
  refine ⟨⟨?_, aside.lists, ?_, ?_⟩, ?_, ?_⟩
  · rw [aside.front, principal]
    exact consistent.front
  · rw [aside.weightless.total, pending]
    exact consistent.balanced
  · rw [pending, aside.quit]
    exact consistent.unclosed
  · exact implies_of_front mutationWeight load aside.front aside.operation timeline.continues_refl
  · intro effect present
    exact marked_of_weightless (aside.weightless effect present)

omit [AppHost] in
theorem mutationWeight_message (message : DataMsg) :
    mutationWeight.message message = 0 ∨ mutationWeight.message message = 1 := by
  cases message <;> simp [mutationWeight]

/-- The loop keeps the agreement. -/
theorem uiLoop_keeps : uiLoop.Keeps mutationWeight App.Consistent App.marks := by
  constructor
  case conserves =>
    intro timeline task answer next progress ran
    exact (performed ran).weight
  case handle =>
    intro timeline app input answer load consistent unclosed handled
    have ran := onEvent_of_handle handled
    cases pending : app.pending with
    | false =>
        have nothing : load = 0 := by
          have balanced := consistent.balanced
          rw [pending] at balanced
          exact balanced
        rw [nothing]
        exact (settled_onEvent consistent.front pending unclosed consistent.lists
          (answers_over timeline app.principal input.engine input.now) ran).keeps
    | true =>
        rcases onEvent_of_pending consistent.front pending ran with ⟨status, rfl⟩
        apply Aside.keeps _ consistent
        exact ⟨rfl, rfl, rfl, consistent.lists, weightless_nil⟩
  case receive =>
    intro timeline app message load consistent marked
    rcases mutationWeight_message message with aside | mutation
    · rw [aside] at consistent
      exact (aside_onData consistent.lists aside).keeps consistent
    · have balanced := consistent.balanced
      rw [mutation] at balanced
      cases pending : app.pending with
      | false =>
          rw [pending] at balanced
          cases balanced
      | true =>
          rw [pending] at balanced
          have nothing : load = 0 := Nat.succ.inj balanced
          rw [nothing]
          exact (settled_onData consistent.front pending consistent.lists mutation marked).keeps
  case perform =>
    intro timeline app task answer next progress load consistent marked ran
    have done := performed ran
    exact ⟨consistent.continues done.continues,
      implies_of_front mutationWeight load rfl rfl done.continues, done.marked app marked⟩
  case drift =>
    intro timeline app call next load consistent drifted
    have stepped : (storeStep timeline.present call).map timeline.commit = some next := drifted
    rcases Option.map_eq_some_iff.mp stepped with ⟨db, _, rfl⟩
    have continues := timeline.continues_commit db
    exact ⟨consistent.continues continues,
      implies_of_front mutationWeight load rfl rfl continues⟩

theorem settled_bootstrap (principal : Option String) (engine : EngineAnswers)
    (timeline : Timeline) : Settled timeline ((App.new principal).bootstrap engine) := by
  have fresh : (App.new principal).lists.Fit := by
    refine ⟨List.forall_mem_nil _, Nat.zero_le _, Nat.zero_le _, List.nodup_nil, ?_⟩
    intro id present
    cases present
  have applied := fun records policy total warning =>
    fresh.applyContextCatalog records policy total warning
  unfold App.bootstrap
  dsimp only
  split
  · exact settled_refresh _ ⟨rfl, rfl, rfl, rfl⟩ (applied _ _ _ _) rfl
  · split
    · exact settled_refresh _ ⟨rfl, rfl, rfl, rfl⟩ (applied _ _ _ _) rfl
    · apply settled_refresh
      · exact ⟨rfl, rfl, rfl, rfl⟩
      · exact fresh
      · rfl

theorem sound_start (principal : Option String) (engine : EngineAnswers) (db : Db) :
    (UiMoment.start principal engine db).Sound mutationWeight App.Consistent App.marks := by
  have settled := settled_bootstrap principal engine ⟨db, []⟩
  constructor
  · refine ⟨settled.front, settled.lists, ?_, settled.unclosed⟩
    rw [UiMoment.start, Situation.load_respond]
    exact (Nat.zero_add _).trans settled.balanced
  · apply Situation.Carries.respond _ settled.marked
    exact ⟨List.forall_mem_nil _, List.forall_mem_nil _⟩

/-- Every moment that a session reaches is consistent, and everything under way
belongs to it. -/
theorem UiMoment.Reached.sound {moment : UiMoment} (reached : moment.Reached) :
    moment.Sound mutationWeight App.Consistent App.marks := by
  rcases reached with ⟨principal, engine, db, happenings, ran⟩
  exact uiLoop_keeps.run (sound_start principal engine db) ran

end Sessions

/-! ## No handler slices a text out of bounds -/

section Bounds

variable [AppHost] {app : App} {engine : EngineAnswers}

/-- A computation stops only at a text that outgrows its allocation. -/
def StopsFull {α : Type} (body : Except Panic α) : Prop :=
  Checked.FailsWith (· = .capacityOverflow) body

omit [AppHost] in
theorem stopsFull_clone (text : String) : StopsFull (OwnedText.clone text) := by
  intro panic stopped
  unfold OwnedText.clone at stopped
  split at stopped
  · cases stopped
  · cases stopped
    rfl

omit [AppHost] in
theorem stopsFull_of_press {α : Type} {body : Except Panic α} {shown : α → Prop}
    (pressed : (∃ next, body = .ok next ∧ shown next) ∨ body = .error .capacityOverflow) :
    StopsFull body := by
  intro panic stopped
  rcases pressed with ⟨next, ran, _⟩ | full
  · cases ran.symm.trans stopped
  · cases full.symm.trans stopped
    rfl

omit [AppHost] in
theorem stopsFull_pushQuery (value : OwnedText) (letter : Char) :
    StopsFull (value.insert value.text.utf8ByteSize letter) := by
  have atEnd : value.text.toList = value.text.toList ++ [] := (List.append_nil _).symm
  have inserted := OwnedText.insert_of_append atEnd letter
  rw [← utf8ByteSize_eq_extent] at inserted
  exact stopsFull_of_press inserted

omit [AppHost] in
theorem stopsFull_ensureCursorVisible {draft : EditDraft} (shown : draft.Shown) :
    StopsFull draft.ensureCursorVisible := by
  intro panic stopped
  rcases shown.ensureCursorVisible with ⟨scroll, ran⟩
  cases ran.symm.trans stopped

theorem stopsFull_newDraft (memory : Memory) (metadata : Option MemoryMetadata)
    (contexts : List ContextDescriptor) : StopsFull (EditDraft.new memory metadata contexts) := by
  unfold EditDraft.new
  dsimp only
  apply Checked.FailsWith.bind (stopsFull_clone _)
  intro content
  apply Checked.FailsWith.bind (stopsFull_clone _)
  intro contextsText
  apply Checked.FailsWith.bind (stopsFull_clone _)
  intro tags
  apply Checked.FailsWith.bind (stopsFull_clone _)
  intro importance
  apply Checked.FailsWith.bind (stopsFull_clone _)
  intro expiry
  apply Checked.FailsWith.bind (stopsFull_clone _)
  intro metadataText
  exact Checked.FailsWith.ok _

omit [AppHost] in
theorem stopsFull_keySearch (app : App) (key : KeyEvent) : StopsFull (app.keySearch key) := by
  unfold App.keySearch
  split
  · exact Checked.FailsWith.ok _
  · exact Checked.FailsWith.ok _
  · exact Checked.FailsWith.ok _
  · split
    · exact Checked.FailsWith.ok _
    · split
      · exact Checked.FailsWith.ok _
      · exact Checked.FailsWith.bind (stopsFull_pushQuery _ _) fun _ => Checked.FailsWith.ok _
  · exact Checked.FailsWith.ok _

theorem stopsFull_keyDetail (app : App) (key : KeyEvent) :
    StopsFull (app.keyDetail key) := by
  unfold App.keyDetail
  split
  case h_4 =>
    refine Checked.FailsWith.bind ?_ fun _ => Checked.FailsWith.ok _
    unfold App.beginEdit
    split
    · exact Checked.FailsWith.ok _
    · split
      · exact Checked.FailsWith.ok _
      · split
        · exact Checked.FailsWith.ok _
        · split
          · exact Checked.FailsWith.ok _
          · exact Checked.FailsWith.bind (stopsFull_newDraft _ _ _) fun _ =>
              Checked.FailsWith.ok _
  all_goals exact Checked.FailsWith.ok _

theorem stopsFull_keyEdit {read : Memory → Prop} (editing : app.front.Editing read)
    (key : KeyEvent) : StopsFull (app.keyEdit key) := by
  rcases editing.edit with ⟨draft, drafted, shown⟩
  unfold App.keyEdit
  split
  · exact Checked.FailsWith.ok _
  · split
    · exact Checked.FailsWith.ok _
    · split
      · exact Checked.FailsWith.ok _
      · rename_i other present
        cases present.symm.trans drafted
        split
        · split
          · exact Checked.FailsWith.bind (stopsFull_ensureCursorVisible shown) fun _ =>
              Checked.FailsWith.ok _
          · exact Checked.FailsWith.ok _
        · intro panic stopped
          cases pressed : App.editDraft draft key with
          | error early =>
              rw [pressed] at stopped
              cases stopped
              unfold App.editDraft at pressed
              split at pressed
              · exact stopsFull_of_press (shown.press _) _ pressed
              · cases pressed
          | ok edited =>
              rw [pressed] at stopped
              have editedShown := shown_editDraft shown pressed
              exact Checked.FailsWith.bind (stopsFull_ensureCursorVisible editedShown)
                (fun _ => Checked.FailsWith.ok _) panic stopped

omit [AppHost] in
theorem stopsFull_keyContextManagerEdit {manager : ContextManager} {edit : ContextManagerEdit}
    (pane : EditingPane app manager edit) (key : KeyEvent) :
    StopsFull (app.keyContextManagerEdit engine key) := by
  rcases pane.shown with ⟨caret, shown⟩
  unfold App.keyContextManagerEdit
  split
  · exact Checked.FailsWith.ok _
  · split
    · exact Checked.FailsWith.ok _
    · split
      · split
        · exact Checked.FailsWith.ok _
        · exact Checked.FailsWith.ok _
      · split
        · exact Checked.FailsWith.ok _
        · rename_i other present
          cases present.symm.trans pane.opened
          split
          · exact Checked.FailsWith.ok _
          · rename_i otherEdit current
            cases current.symm.trans pane.edited
            refine Checked.FailsWith.bind ?_ fun _ => Checked.FailsWith.ok _
            unfold App.editPane
            split
            · exact Checked.FailsWith.ok _
            · exact Checked.FailsWith.bind (stopsFull_of_press (shown.press_eq _)) fun _ =>
                Checked.FailsWith.ok _

/-- An event stops the program only at a text that outgrows its allocation. -/
theorem stopsFull_onEvent {read : Memory → Prop} (front : app.front.Shows read)
    (event : TerminalEvent) : StopsFull (app.onEvent engine event) := by
  unfold App.onEvent
  split
  · exact Checked.FailsWith.ok _
  · split
    case isFalse => exact Checked.FailsWith.ok _
    split
    · exact Checked.FailsWith.ok _
    unfold App.onKey
    unfold Front.Shows at front
    split <;> rename_i mode <;> rw [show app.front.mode = _ from mode] at front <;>
      dsimp only at front
    · exact Checked.FailsWith.ok _
    · exact stopsFull_keySearch app _
    · exact stopsFull_keyDetail app _
    · exact stopsFull_keyEdit front _
    · exact Checked.FailsWith.ok _
    · exact Checked.FailsWith.ok _
    · exact Checked.FailsWith.ok _
    · rcases front with ⟨managing, named, manager, edit, caret, opened, edited, shown⟩
      exact stopsFull_keyContextManagerEdit ⟨managing, named, opened, edited, caret, shown⟩ _
    · exact Checked.FailsWith.ok _

end Bounds

/-! ## Every moment of a session -/

/-- At every moment of a session the mode says which overlays are open and what
they hold, the lists and cursors fit, and a mutation is under way exactly while
the interface is pending: it was asked for from the open overlay and belongs to
the current operation, so its message will be taken.  No event stops the
program but a text that outgrows its allocation. -/
theorem session_consistent [AppHost] {moment : UiMoment} (reached : moment.Reached) :
    moment.state.Consistent moment.world (moment.load mutationWeight) ∧
      moment.Carries (moment.state.marks moment.world) ∧
        ∀ engine event panic, moment.state.onEvent engine event = .error panic →
          panic = .capacityOverflow := by
  rcases reached.sound with ⟨consistent, carries⟩
  refine ⟨consistent, carries, ?_⟩
  intro engine event panic stopped
  exact stopsFull_onEvent consistent.front event panic stopped

/-- The owner has confirmed a deletion: it is pending, and it is under way. -/
theorem session_consistent_deleting :
    ∃ moment : UiMoment, moment.state.pending = true ∧ moment.jobs.length = 1 ∧
      @App.Consistent moment.state moment.world (moment.load mutationWeight) := by
  have reaches : ∃ moment, afterSession [pressed (.char 'd'), pressed (.char 'y')] = some moment ∧
      moment.state.pending = true ∧ moment.jobs.length = 1 := ⟨_, rfl, rfl, rfl⟩
  rcases reaches with ⟨moment, reaches, pending, one⟩
  exact ⟨moment, pending, one,
    (@session_consistent asciiAppHost moment (reached_afterSession reaches)).1⟩

end LocalHold
