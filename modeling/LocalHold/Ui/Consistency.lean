import LocalHold.Ui.Session

/-!
# What the screen shows agrees with what is under way

The mode of the interface says which overlays are open and what they hold.  A
mutation is under way exactly while the interface is pending, it is the one
that the open draft or the open confirmation asked for, and its message is
never taken for a stale one.
-/

namespace LocalHold

open Transition.EventLoop

/-! ## What is on the screen -/

/-- A memory that some moment of the store showed a principal. -/
def Timeline.Read (timeline : Timeline) (principal : Option String) (memory : Memory) : Prop :=
  ∃ moment ∈ timeline.moments, ∃ now,
    moment.getMemory memory.id principal now = some memory

/-- The detail overlay shows the wire view of a memory that was read, and
nothing about it that the view hides. -/
structure Detail.Fits (detail : Detail) (read : Memory → Prop) : Prop where
  sanitized : detail.memory.sanitizeForWire = detail.memory
  metadata : detail.memory.wasRedacted = true → detail.metadata = none
  audit : detail.memory.wasRedacted = true →
    ∀ entry ∈ detail.audit, entry.callerAgent = none ∧ entry.details = none
  read : detail.memory.wasRedacted = false → read detail.memory

theorem Detail.Fits.mono {detail : Detail} {early late : Memory → Prop} (fits : detail.Fits early)
    (implies : ∀ memory, early memory → late memory) : detail.Fits late :=
  ⟨fits.sanitized, fits.metadata, fits.audit, fun plain => implies _ (fits.read plain)⟩

theorem Detail.Fits.withScroll {detail : Detail} {read : Memory → Prop} (fits : detail.Fits read)
    (scroll : Nat) : ({ detail with scroll } : Detail).Fits read :=
  ⟨fits.sanitized, fits.metadata, fits.audit, fits.read⟩

/-- The part of the state that the overlays are made of. -/
structure Front where
  principal : Option String
  mode : Mode
  pending : Bool
  detail : Option Detail
  edit : Option EditDraft
  contextManager : Option ContextManager

/-- The front of a state. -/
def App.front (app : App) : Front where
  principal := app.principal
  mode := app.mode
  pending := app.pending
  detail := app.detail
  edit := app.edit
  contextManager := app.contextManager

namespace Front

/-- No overlay is open. -/
structure Bare (front : Front) : Prop where
  pending : front.pending = false
  detail : front.detail = none
  edit : front.edit = none
  contextManager : front.contextManager = none

/-- Only the detail overlay is open. -/
structure Detailed (front : Front) (read : Memory → Prop) : Prop where
  detail : ∃ detail, front.detail = some detail ∧ detail.Fits read
  edit : front.edit = none
  contextManager : front.contextManager = none

/-- The principal may change the memory that is shown. -/
def Writable (front : Front) : Prop :=
  ∃ detail principal, front.detail = some detail ∧ front.principal = some principal ∧
    detail.memory.wasRedacted = false ∧ detail.memory.hasWriteAccess principal = true

/-- A draft of the memory that is shown is open. -/
structure Editing (front : Front) (read : Memory → Prop) : Prop where
  detail : ∃ detail, front.detail = some detail ∧ detail.Fits read
  edit : ∃ draft, front.edit = some draft ∧ draft.Shown
  contextManager : front.contextManager = none
  writable : front.Writable

/-- Only the context manager is open. -/
structure Managing (front : Front) : Prop where
  pending : front.pending = false
  detail : front.detail = none
  edit : front.edit = none

/-- The mode says which overlays are open and what they hold. -/
def Shows (front : Front) (read : Memory → Prop) : Prop :=
  match front.mode with
  | .browse | .search => front.Bare
  | .detail => front.Detailed read ∧ front.pending = false
  | .confirmDelete => front.Detailed read ∧ front.Writable
  | .edit => front.Editing read
  | .confirmDiscard => front.Editing read ∧ front.pending = false
  | .contextManager =>
      front.Managing ∧ ∃ manager, front.contextManager = some manager ∧ manager.edit = none
  | .contextManagerEdit | .confirmContextDiscard =>
      front.Managing ∧ front.principal.isSome = true ∧
        ∃ manager edit caret, front.contextManager = some manager ∧ manager.edit = some edit ∧
          edit.input.Shows caret

theorem Detailed.mono {front : Front} {early late : Memory → Prop} (shown : front.Detailed early)
    (implies : ∀ memory, early memory → late memory) : front.Detailed late := by
  rcases shown.detail with ⟨detail, opened, fits⟩
  exact ⟨⟨detail, opened, fits.mono implies⟩, shown.edit, shown.contextManager⟩

theorem Editing.mono {front : Front} {early late : Memory → Prop} (shown : front.Editing early)
    (implies : ∀ memory, early memory → late memory) : front.Editing late := by
  rcases shown.detail with ⟨detail, opened, fits⟩
  exact ⟨⟨detail, opened, fits.mono implies⟩, shown.edit, shown.contextManager, shown.writable⟩

theorem Shows.mono {front : Front} {early late : Memory → Prop} (shows : front.Shows early)
    (implies : ∀ memory, early memory → late memory) : front.Shows late := by
  unfold Shows at shows ⊢
  split at shows
  · exact shows
  · exact shows
  · exact ⟨shows.1.mono implies, shows.2⟩
  · exact ⟨shows.1.mono implies, shows.2⟩
  · exact shows.mono implies
  · exact ⟨shows.1.mono implies, shows.2⟩
  · exact shows
  · exact shows
  · exact shows

/-- Nothing is pending but a save from the open draft or a deletion from the
open confirmation. -/
theorem Shows.mode_of_pending {front : Front} {read : Memory → Prop} (shows : front.Shows read)
    (pending : front.pending = true) : front.mode = .edit ∨ front.mode = .confirmDelete := by
  unfold Shows at shows
  split at shows
  · exact Bool.noConfusion (pending.symm.trans shows.pending)
  · exact Bool.noConfusion (pending.symm.trans shows.pending)
  · exact Bool.noConfusion (pending.symm.trans shows.2)
  · right
    assumption
  · left
    assumption
  · exact Bool.noConfusion (pending.symm.trans shows.2)
  · exact Bool.noConfusion (pending.symm.trans shows.1.pending)
  · exact Bool.noConfusion (pending.symm.trans shows.1.pending)
  · exact Bool.noConfusion (pending.symm.trans shows.1.pending)

end Front

/-- A row shows the wire view of its memory, and no score of a redacted one. -/
structure Row.Fits (row : Row) : Prop where
  sanitized : row.memory.sanitizeForWire = row.memory
  score : row.memory.wasRedacted = true → row.score = none

/-- The lists of the screen and the cursors in them. -/
structure Lists where
  rows : List Row
  rowSelected : Nat
  contexts : List ContextRecord
  contextCursor : Nat
  selected : List ContextId

/-- The lists of a state. -/
def App.lists (app : App) : Lists where
  rows := app.rows
  rowSelected := app.rowSelected
  contexts := app.contexts
  contextCursor := app.contextCursor
  selected := app.selectedContextIds

/-- Rows are views, cursors lie inside, and what is selected can be selected. -/
structure Lists.Fit (lists : Lists) : Prop where
  rows : ∀ row ∈ lists.rows, row.Fits
  rowSelected : lists.rowSelected ≤ lists.rows.length - 1
  contextCursor : lists.contextCursor ≤ lists.contexts.length
  selected : lists.selected.Nodup
  selectable : ∀ id ∈ lists.selected, ∃ record ∈ lists.contexts,
    record.context.id = id ∧ record.context.lifecycle = .active

/-! ## The wire view -/

namespace Memory

@[simp]
theorem id_sanitizeForWire (memory : Memory) : memory.sanitizeForWire.id = memory.id := by
  unfold sanitizeForWire
  split <;> rfl

@[simp]
theorem wasRedacted_sanitizeForWire (memory : Memory) :
    memory.sanitizeForWire.wasRedacted = memory.wasRedacted := by
  unfold sanitizeForWire
  split <;> rfl

theorem sanitizeForWire_of_plain {memory : Memory} (plain : memory.wasRedacted = false) :
    memory.sanitizeForWire = memory := by
  rw [sanitizeForWire, plain]
  rfl

@[simp]
theorem sanitizeForWire_sanitizeForWire (memory : Memory) :
    memory.sanitizeForWire.sanitizeForWire = memory.sanitizeForWire := by
  cases redacted : memory.wasRedacted with
  | false =>
      rw [sanitizeForWire_of_plain redacted]
      exact sanitizeForWire_of_plain redacted
  | true =>
      simp only [sanitizeForWire, redacted, if_true]

end Memory

theorem fits_sanitizeRowForView (row : Row) : (App.sanitizeRowForView row).Fits := by
  constructor
  · exact Memory.sanitizeForWire_sanitizeForWire row.memory
  · intro redacted
    have hidden : row.memory.sanitizeForWire.wasRedacted = true := redacted
    simp only [App.sanitizeRowForView, hidden]
    cases row.score <;> rfl

theorem id_of_getMemory {db : Db} {id : MemoryId} {principal : Option String} {now : Instant}
    {memory : Memory} (found : db.getMemory id principal now = some memory) : memory.id = id := by
  unfold Db.getMemory at found
  split at found
  · cases found
  · rename_i row present
    have rowId : row.id = id := Relational.Table.find?_key present
    split at found
    · cases found
    · unfold Memory.applyAccessPolicy at found
      split at found
      · cases found
        exact rowId
      · cases found
        exact rowId
      · cases found

/-! ## What is under way -/

/-- Mutations and their messages count. -/
def mutationWeight : Weight DataTask DataMsg where
  job
    | .save .. | .refreshDetail .. | .delete .. => 1
    | .list .. | .search .. | .catalog .. => 0
  message
    | .updated .. | .updatedInvisible .. | .updatedUnrefreshed .. | .missing .. | .deleted .. => 1
    | .mutationFailed .. => 1
    | .rows .. | .failed .. | .contextCatalog .. | .contextCatalogFailed .. => 0

/-- The operation under way is the current one and was started in a mode. -/
structure App.Operates (app : App) (mode : Mode) (generation : Nat) : Prop where
  mode : app.mode = mode
  generation : generation = app.operationGeneration

/-- A mutation of the memory that is shown, at the revision that is shown. -/
structure App.Mutates (app : App) (mode : Mode) (id : MemoryId) (revision : Int)
    (principal : String) (generation : Nat) : Prop where
  operates : app.Operates mode generation
  principal : app.principal = some principal
  shown : ∃ detail, app.detail = some detail ∧ detail.memory.id = id ∧
    detail.memory.recordRevision = revision

/-- The open draft reads as an edit. -/
def App.Drafts [EditorHost] (app : App) (edit : ParsedEdit) : Prop :=
  ∃ draft, app.edit = some draft ∧ draft.parse = .ok edit

/-- The overlays, the lists and the mutations under way agree. -/
structure App.Consistent (app : App) (timeline : Timeline) (load : Nat) : Prop where
  front : app.front.Shows (timeline.Read app.principal)
  lists : app.lists.Fit
  balanced : load = if app.pending then 1 else 0
  unclosed : app.pending = true → app.quit = false

section Marking

variable [AppHost]

/-- What is under way agrees with the state. -/
def App.marks (app : App) (timeline : Timeline) : Marks DataTask DataMsg where
  job
    | .save id revision edit principal generation =>
        app.Mutates .edit id revision principal generation ∧ app.Drafts edit
    | .refreshDetail _ principal generation =>
        app.Operates .edit generation ∧ app.principal = some principal
    | .delete id revision principal generation =>
        app.Mutates .confirmDelete id revision principal generation
    | .list .. | .search .. | .catalog .. => True
  message
    | .updated memory _ _ _ _ generation =>
        app.Operates .edit generation ∧
          (memory.wasRedacted = false → timeline.Read app.principal memory)
    | .updatedInvisible _ generation => app.Operates .edit generation
    | .updatedUnrefreshed _ _ generation => app.Operates .edit generation
    | .missing _ generation => generation = app.operationGeneration
    | .deleted _ generation => app.Operates .confirmDelete generation
    | .mutationFailed _ generation => generation = app.operationGeneration
    | .rows .. | .failed .. | .contextCatalog .. | .contextCatalogFailed .. => True

/-- What a handler that found nothing pending returns. -/
structure Settled (timeline : Timeline) (answer : App × DataEffects) : Prop where
  front : answer.1.front.Shows (timeline.Read answer.1.principal)
  lists : answer.1.lists.Fit
  balanced : mutationWeight.total answer.2 = if answer.1.pending then 1 else 0
  unclosed : answer.1.pending = true → answer.1.quit = false
  marked : ∀ effect ∈ answer.2, (answer.1.marks timeline).effect effect

end Marking

/-- Effects that are no mutations. -/
def Weightless (effects : DataEffects) : Prop :=
  ∀ effect ∈ effects, mutationWeight.effect effect = 0

theorem marked_of_weightless [AppHost] {app : App} {timeline : Timeline}
    {effect : Effect DataTask DataMsg} (weightless : mutationWeight.effect effect = 0) :
    (app.marks timeline).effect effect := by
  cases effect with
  | spawn task => cases task <;> trivial
  | send message => cases message <;> trivial

theorem Weightless.total {effects : DataEffects} (weightless : Weightless effects) :
    mutationWeight.total effects = 0 := by
  apply List.sum_eq_zero
  intro weight present
  rcases List.mem_map.mp present with ⟨effect, listed, rfl⟩
  exact weightless effect listed

theorem Settled.of_weightless [AppHost] {timeline : Timeline} {answer : App × DataEffects}
    (front : answer.1.front.Shows (timeline.Read answer.1.principal)) (lists : answer.1.lists.Fit)
    (idle : answer.1.pending = false) (weightless : Weightless answer.2) :
    Settled timeline answer := by
  constructor
  · exact front
  · exact lists
  · rw [weightless.total, idle]
    rfl
  · intro pending
    cases idle.symm.trans pending
  · intro effect present
    exact marked_of_weightless (weightless effect present)

theorem weightless_nil : Weightless [] :=
  List.forall_mem_nil _

theorem Settled.of_still [AppHost] {timeline : Timeline} {app : App}
    (front : app.front.Shows (timeline.Read app.principal)) (lists : app.lists.Fit)
    (idle : app.pending = false) : Settled timeline (app, []) :=
  Settled.of_weightless front lists idle weightless_nil

theorem Weightless.append {first second : DataEffects} (firstWeightless : Weightless first)
    (secondWeightless : Weightless second) : Weightless (first ++ second) :=
  List.forall_mem_append.mpr ⟨firstWeightless, secondWeightless⟩

/-! ## Refreshing -/

theorem weightless_catalog (generation : Nat) :
    Weightless [.spawn (.catalog generation)] := by
  intro effect present
  rcases List.mem_singleton.mp present with rfl
  rfl

theorem weightless_spawnList (app : App) : Weightless app.spawnList := by
  unfold App.spawnList
  split <;> exact List.forall_mem_singleton.mpr rfl

theorem weightless_spawnSearch (app : App) : Weightless app.spawnSearch := by
  unfold App.spawnSearch
  split <;> exact List.forall_mem_singleton.mpr rfl

theorem weightless_refresh (app : App) : Weightless app.refresh.2 := by
  unfold App.refresh
  dsimp only
  split
  · exact weightless_spawnList _
  · exact weightless_spawnSearch _

section Refreshing

variable [AppHost] {timeline : Timeline} (app : App)
  (front : app.front.Shows (timeline.Read app.principal)) (lists : app.lists.Fit)
  (idle : app.pending = false)

include front lists idle

theorem settled_refresh : Settled timeline app.refresh := by
  apply Settled.of_weightless
  · exact front
  · exact lists
  · exact idle
  · exact weightless_refresh app

theorem settled_refreshContextCatalog : Settled timeline app.refreshContextCatalog := by
  apply Settled.of_weightless
  · exact front
  · exact lists
  · exact idle
  · exact weightless_catalog _

theorem settled_refreshAll : Settled timeline app.refreshAll := by
  apply Settled.of_weightless
  · exact front
  · exact lists
  · exact idle
  · exact (weightless_catalog _).append (weightless_refresh _)

end Refreshing

/-! ## The lists -/

namespace Lists.Fit

variable {app : App}

theorem moveSelection (lists : app.lists.Fit) (down : Bool) :
    (app.moveSelection down).lists.Fit := by
  unfold App.moveSelection
  split
  · refine ⟨lists.rows, ?_, lists.contextCursor, lists.selected, lists.selectable⟩
    have before : app.rowSelected ≤ app.rows.length - 1 := lists.rowSelected
    cases down with
    | true => exact Nat.min_le_right _ _
    | false => exact Nat.le_trans (Nat.sub_le _ _) before
  · refine ⟨lists.rows, lists.rowSelected, ?_, lists.selected, lists.selectable⟩
    have before : app.contextCursor ≤ app.contexts.length := lists.contextCursor
    cases down with
    | true => exact Nat.min_le_right _ _
    | false => exact Nat.le_trans (Nat.sub_le _ _) before

theorem jumpSelection (lists : app.lists.Fit) (top : Bool) :
    (app.jumpSelection top).lists.Fit := by
  unfold App.jumpSelection
  split
  · refine ⟨lists.rows, ?_, lists.contextCursor, lists.selected, lists.selectable⟩
    cases top <;> simp [App.lists]
  · refine ⟨lists.rows, lists.rowSelected, ?_, lists.selected, lists.selectable⟩
    cases top <;> simp [App.lists]

/-- A selection of what was selected, from the first row on. -/
theorem sublist (lists : app.lists.Fit) {selected : List ContextId}
    (fewer : selected.Sublist app.selectedContextIds) :
    ({ app with selectedContextIds := selected, rowSelected := 0 } : App).lists.Fit := by
  refine ⟨lists.rows, Nat.zero_le _, lists.contextCursor, lists.selected.sublist fewer, ?_⟩
  intro id present
  exact lists.selectable id (fewer.subset present)

theorem select (lists : app.lists.Fit) {record : ContextRecord} (listed : record ∈ app.contexts)
    (active : record.context.lifecycle = .active)
    (unselected : record.context.id ∉ app.selectedContextIds) :
    ({ app with
      selectedContextIds := app.selectedContextIds ++ [record.context.id]
      rowSelected := 0 } : App).lists.Fit := by
  refine ⟨lists.rows, Nat.zero_le _, lists.contextCursor, ?_, ?_⟩
  · apply List.nodup_append.mpr
    refine ⟨lists.selected, List.nodup_singleton _, ?_⟩
    intro id selected other new
    rw [List.mem_singleton.mp new]
    rintro rfl
    exact unselected selected
  · intro id present
    rcases List.mem_append.mp present with selected | new
    · exact lists.selectable id selected
    · rw [List.mem_singleton.mp new]
      exact ⟨record, listed, rfl, active⟩

theorem applyContextCatalog (lists : app.lists.Fit) (records : List ContextRecord)
    (policy : ContextPolicySnapshot) (total : Option Nat) (warning : Option String) :
    (app.applyContextCatalog records policy total warning).lists.Fit := by
  refine ⟨lists.rows, lists.rowSelected, ?_, lists.selected.filter _, ?_⟩
  · simp only [App.lists, App.applyContextCatalog]
    cases found : (app.cursorContext.map (·.context.id)).bind fun id =>
        (records.filter fun record =>
          app.showArchivedContexts || record.context.lifecycle == .active).findIdx?
            fun record => decide (record.context.id = id) with
    | none => exact Nat.zero_le _
    | some index =>
        rcases Option.bind_eq_some_iff.mp found with ⟨id, _, placed⟩
        exact (List.findIdx?_eq_some_iff_findIdx_eq.mp placed).1
  · intro id present
    have available := (List.mem_filter.mp present).2
    rw [List.contains_iff_mem] at available
    rcases List.mem_map.mp available with ⟨record, listed, rfl⟩
    rcases List.mem_filter.mp listed with ⟨shown, active⟩
    exact ⟨record, shown, rfl, beq_iff_eq.mp active⟩

end Lists.Fit

theorem mem_of_cursorContext {app : App} {record : ContextRecord}
    (under : app.cursorContext = some record) : record ∈ app.contexts := by
  unfold App.cursorContext at under
  split at under
  · cases under
  · exact List.mem_of_getElem? under

/-! ## Browsing -/

/-- An engine that answers for a moment of the store. -/
def Timeline.Answers (timeline : Timeline) (principal : Option String) (engine : EngineAnswers) :
    Prop :=
  ∀ id memory, engine.getMemory id = .ok (some memory) →
    memory.id = id ∧ timeline.Read principal memory

theorem answers_over (timeline : Timeline) (principal : Option String) (engine : EngineAnswers)
    (now : Instant) :
    timeline.Answers principal (engine.over timeline.present principal now) := by
  intro id memory answered
  have found : timeline.present.getMemory id principal now = some memory := by
    unfold EngineAnswers.over at answered
    dsimp only at answered
    cases asked : engine.getMemory id with
    | error error =>
        rw [asked] at answered
        cases answered
    | ok value =>
        rw [asked] at answered
        exact Except.ok.inj answered
  have sameId := id_of_getMemory found
  refine ⟨sameId, timeline.present, List.mem_cons_self, now, ?_⟩
  rw [sameId]
  exact found

theorem front_loadDetailAudit (app : App) (engine : EngineAnswers) (id : MemoryId) :
    (app.loadDetailAudit engine id).1.front = app.front ∧
      (app.loadDetailAudit engine id).1.lists = app.lists := by
  unfold App.loadDetailAudit
  split <;> exact ⟨rfl, rfl⟩

theorem front_loadDetailMetadata (app : App) (engine : EngineAnswers) (id : MemoryId) :
    (app.loadDetailMetadata engine id).1.front = app.front ∧
      (app.loadDetailMetadata engine id).1.lists = app.lists := by
  unfold App.loadDetailMetadata
  split <;> exact ⟨rfl, rfl⟩

theorem front_loadDetailContexts (app : App) (engine : EngineAnswers) (id : MemoryId) :
    (app.loadDetailContexts engine id).1.front = app.front ∧
      (app.loadDetailContexts engine id).1.lists = app.lists := by
  unfold App.loadDetailContexts
  split <;> exact ⟨rfl, rfl⟩

theorem redacted_redactAudit (audit : List AuditEntry) :
    ∀ entry ∈ App.redactAudit audit, entry.callerAgent = none ∧ entry.details = none := by
  intro entry present
  rcases List.mem_map.mp present with ⟨original, _, rfl⟩
  exact ⟨rfl, rfl⟩

/-- The detail overlay that a read memory opens. -/
theorem fits_detail (read : Memory → Prop) {found : Memory} (metadata : Option MemoryMetadata)
    (audit : List AuditEntry) (contexts : List ContextDescriptor)
    (wasRead : found.wasRedacted = false → read found)
    (hidden : found.wasRedacted = true → metadata = none)
    (redacted : found.wasRedacted = true →
      ∀ entry ∈ audit, entry.callerAgent = none ∧ entry.details = none) :
    (⟨found.sanitizeForWire, metadata, audit, contexts, 0⟩ : Detail).Fits read := by
  constructor
  · exact Memory.sanitizeForWire_sanitizeForWire found
  · rw [Memory.wasRedacted_sanitizeForWire]
    exact hidden
  · rw [Memory.wasRedacted_sanitizeForWire]
    exact redacted
  · rw [Memory.wasRedacted_sanitizeForWire]
    intro plain
    rw [Memory.sanitizeForWire_of_plain plain]
    exact wasRead plain

section Browsing

variable [AppHost] {timeline : Timeline} {app : App} {engine : EngineAnswers}

omit [AppHost] in
theorem shows_of_bare (app : App) {read : Memory → Prop} (bare : app.front.Bare)
    (mode : app.mode = .browse) : app.front.Shows read := by
  have modeEq : app.front.mode = .browse := mode
  simp only [Front.Shows, modeEq]
  exact bare

theorem settled_openDetail (bare : app.front.Bare) (mode : app.mode = .browse)
    (lists : app.lists.Fit) (answers : timeline.Answers app.principal engine) :
    Settled timeline (app.openDetail engine, []) := by
  have idle : app.pending = false := bare.pending
  unfold App.openDetail
  split
  · exact Settled.of_still (shows_of_bare app bare mode) lists idle
  · rename_i row present
    dsimp only
    split
    · rename_i found answered
      rcases answers _ _ answered with ⟨sameId, wasRead⟩
      rcases front_loadDetailAudit app engine row.memory.id with ⟨auditFront, auditLists⟩
      generalize app.loadDetailAudit engine row.memory.id = audited at auditFront auditLists ⊢
      rcases audited with ⟨afterAudit, audit⟩
      dsimp only at auditFront auditLists ⊢
      cases redacted : found.wasRedacted with
      | true =>
          simp only [Memory.wasRedacted_sanitizeForWire, redacted, if_true]
          have fits := fits_detail (timeline.Read app.principal) none
            (App.redactAudit audit) [] (fun _ => wasRead) (fun _ => rfl)
            (fun _ => redacted_redactAudit audit)
          apply Settled.of_still
          · have samePrincipal := congrArg Front.principal auditFront
            refine ⟨⟨⟨_, rfl, ?_⟩, ?_, ?_⟩, ?_⟩
            · rw [show afterAudit.principal = app.principal from samePrincipal]
              exact fits
            · exact (congrArg Front.edit auditFront).trans bare.edit
            · exact (congrArg Front.contextManager auditFront).trans bare.contextManager
            · exact (congrArg Front.pending auditFront).trans bare.pending
          · rw [show app.lists = afterAudit.lists from auditLists.symm] at lists
            exact lists
          · exact (congrArg Front.pending auditFront).trans bare.pending
      | false =>
          simp only [Memory.wasRedacted_sanitizeForWire, redacted, Bool.false_eq_true, if_false]
          rcases front_loadDetailMetadata afterAudit engine row.memory.id with
            ⟨metadataFront, metadataLists⟩
          generalize afterAudit.loadDetailMetadata engine row.memory.id = loaded
            at metadataFront metadataLists ⊢
          rcases loaded with ⟨afterMetadata, metadata⟩
          dsimp only at metadataFront metadataLists ⊢
          rcases front_loadDetailContexts afterMetadata engine row.memory.id with
            ⟨contextsFront, contextsLists⟩
          generalize afterMetadata.loadDetailContexts engine row.memory.id = opened
            at contextsFront contextsLists ⊢
          rcases opened with ⟨last, contexts⟩
          dsimp only at contextsFront contextsLists ⊢
          have sameFront : last.front = app.front :=
            contextsFront.trans (metadataFront.trans auditFront)
          have sameLists : last.lists = app.lists :=
            contextsLists.trans (metadataLists.trans auditLists)
          have fits := fits_detail (timeline.Read app.principal) metadata audit contexts
            (fun _ => wasRead) (fun hidden => Bool.noConfusion (redacted.symm.trans hidden))
            (fun hidden => Bool.noConfusion (redacted.symm.trans hidden))
          apply Settled.of_still
          · refine ⟨⟨⟨_, rfl, ?_⟩, ?_, ?_⟩, ?_⟩
            · rw [show last.principal = app.principal from congrArg Front.principal sameFront]
              exact fits
            · exact (congrArg Front.edit sameFront).trans bare.edit
            · exact (congrArg Front.contextManager sameFront).trans bare.contextManager
            · exact (congrArg Front.pending sameFront).trans bare.pending
          · rw [show app.lists = last.lists from sameLists.symm] at lists
            exact lists
          · exact (congrArg Front.pending sameFront).trans bare.pending
    · exact Settled.of_still (shows_of_bare app bare mode) lists idle
    · exact Settled.of_still (shows_of_bare app bare mode) lists idle

omit [AppHost] in
theorem edit_of_loadContextManager {contextId : ContextId} {pane : ContextManagerPane}
    {manager : ContextManager}
    (loaded : App.loadContextManager engine contextId pane = .ok manager) : manager.edit = none := by
  rcases Transition.Checked.bind_eq_ok.mp loaded with ⟨records, _, found⟩
  split at found
  · cases found
  · rcases Transition.Checked.bind_eq_ok.mp found with ⟨kinds, _, found⟩
    rcases Transition.Checked.bind_eq_ok.mp found with ⟨grants, _, found⟩
    rcases Transition.Checked.bind_eq_ok.mp found with ⟨policies, _, found⟩
    rcases Transition.Checked.bind_eq_ok.mp found with ⟨anchors, _, found⟩
    rcases Transition.Checked.bind_eq_ok.mp found with ⟨audit, _, found⟩
    cases found
    rfl

theorem settled_openContextManager (bare : app.front.Bare) (mode : app.mode = .browse)
    (lists : app.lists.Fit) : Settled timeline (app.openContextManager engine, []) := by
  unfold App.openContextManager
  split
  · exact Settled.of_still (shows_of_bare app bare mode) lists bare.pending
  · split
    · rename_i manager loaded
      apply Settled.of_still
      · exact ⟨⟨bare.pending, bare.detail, bare.edit⟩, manager, rfl,
          edit_of_loadContextManager loaded⟩
      · exact lists
      · exact bare.pending
    · exact Settled.of_still (shows_of_bare app bare mode) lists bare.pending

theorem settled_toggleCursorContext (bare : app.front.Bare) (mode : app.mode = .browse)
    (lists : app.lists.Fit) : Settled timeline (app.toggleCursorContext engine) := by
  unfold App.toggleCursorContext
  split
  · apply settled_refresh
    · exact shows_of_bare { app with selectedContextIds := [], rowSelected := 0 } bare mode
    · exact lists.sublist (List.nil_sublist _)
    · exact bare.pending
  · rename_i record under
    dsimp only
    split
    · exact Settled.of_still (shows_of_bare app bare mode) lists bare.pending
    · rename_i kept
      have active : record.context.lifecycle = .active := by
        cases lifecycle : record.context.lifecycle with
        | active => rfl
        | archived => exact absurd lifecycle kept
      split
      · apply settled_refresh
        · exact shows_of_bare { app with
            selectedContextIds := app.selectedContextIds.erase record.context.id
            rowSelected := 0 } bare mode
        · exact lists.sublist List.erase_sublist
        · exact bare.pending
      · rename_i unselected
        split
        · exact Settled.of_still (shows_of_bare app bare mode) lists bare.pending
        · apply settled_refresh
          · exact shows_of_bare { app with
              selectedContextIds := app.selectedContextIds ++ [record.context.id]
              rowSelected := 0 } bare mode
          · exact lists.select (mem_of_cursorContext under) active unselected
          · exact bare.pending

theorem settled_toggleContextDescendants (bare : app.front.Bare) (mode : app.mode = .browse)
    (lists : app.lists.Fit) : Settled timeline (app.toggleContextDescendants engine) := by
  have toggled : Settled timeline
      ({ app with includeDescendants := !app.includeDescendants, rowSelected := 0 } :
        App).refresh := by
    apply settled_refresh
    · exact shows_of_bare { app with
        includeDescendants := !app.includeDescendants, rowSelected := 0 } bare mode
    · exact lists.sublist (List.Sublist.refl _)
    · exact bare.pending
  unfold App.toggleContextDescendants
  dsimp only
  split
  · exact toggled
  · split
    · exact Settled.of_still (shows_of_bare app bare mode) lists bare.pending
    · exact toggled

theorem settled_keyBrowse (bare : app.front.Bare) (mode : app.mode = .browse)
    (lists : app.lists.Fit) (answers : timeline.Answers app.principal engine) (key : KeyEvent) :
    Settled timeline (app.keyBrowse engine key) := by
  have idle : app.pending = false := bare.pending
  have shows : app.front.Shows (timeline.Read app.principal) := shows_of_bare app bare mode
  have still : Settled timeline (app, []) := Settled.of_still shows lists idle
  have refreshed : Settled timeline app.refresh := settled_refresh app shows lists idle
  unfold App.keyBrowse
  dsimp only
  split
  case h_1 =>
    unfold App.requestQuit
    split <;> exact Settled.of_still shows lists idle
  case h_2 | h_3 | h_4 | h_5 | h_6 | h_7 => exact Settled.of_still shows lists idle
  case h_8 | h_9 | h_10 | h_11 =>
    have moved := lists.moveSelection
    unfold App.moveSelection at moved ⊢
    cases focused : app.focus with
    | contexts =>
        simp only [focused] at moved
        exact Settled.of_still shows (moved _) idle
    | memories =>
        simp only [focused] at moved
        exact Settled.of_still shows (moved _) idle
  case h_12 | h_13 | h_14 | h_15 =>
    have jumped := lists.jumpSelection
    unfold App.jumpSelection at jumped ⊢
    cases focused : app.focus with
    | contexts =>
        simp only [focused] at jumped
        exact Settled.of_still shows (jumped _) idle
    | memories =>
        simp only [focused] at jumped
        exact Settled.of_still shows (jumped _) idle
  case h_16 =>
    apply Settled.of_still
    · exact ⟨idle, bare.detail, bare.edit, bare.contextManager⟩
    · exact lists
    · exact idle
  case h_17 =>
    unfold App.cycleMode
    dsimp only
    split
    · exact Settled.of_still shows lists idle
    · exact settled_refresh { app with
        requestedMode := App.nextSearchMode app.requestedMode } shows lists idle
  case h_18 => exact settled_refreshAll app shows lists idle
  case h_19 =>
    split
    · exact settled_toggleCursorContext bare mode lists
    · exact still
  case h_20 =>
    split
    · exact settled_refresh { app with selectedContextIds := [], rowSelected := 0 } shows
        (lists.sublist (List.nil_sublist _)) idle
    · exact still
  case h_21 =>
    split
    · exact settled_toggleContextDescendants bare mode lists
    · exact still
  case h_22 =>
    split
    · exact settled_refreshContextCatalog { app with
        showArchivedContexts := !app.showArchivedContexts } shows lists idle
    · exact still
  case h_23 =>
    split
    · exact settled_openContextManager bare mode lists
    · exact still
  case h_24 =>
    split
    · exact still
    · exact settled_refresh { app with query := .empty } shows lists idle
  case h_25 =>
    unfold App.openOrFocus
    split
    · exact Settled.of_still shows lists idle
    · exact settled_openDetail bare mode lists answers
  case h_26 => exact still

end Browsing

/-! ## Searching -/

section Modes

variable [AppHost] {timeline : Timeline} {app : App} {engine : EngineAnswers}

theorem settled_keySearch {answer : App × DataEffects} {key : KeyEvent}
    (bare : app.front.Bare) (mode : app.mode = .search) (lists : app.lists.Fit)
    (handled : app.keySearch key = .ok answer) : Settled timeline answer := by
  have idle : app.pending = false := bare.pending
  have shows : app.front.Shows (timeline.Read app.principal) := by
    simp only [Front.Shows, show app.front.mode = .search from mode]
    exact bare
  have closed : ({ app with mode := .browse } : App).front.Shows (timeline.Read app.principal) :=
    ⟨idle, bare.detail, bare.edit, bare.contextManager⟩
  unfold App.keySearch at handled
  split at handled
  · cases handled
    exact Settled.of_still closed lists idle
  · cases handled
    exact settled_refresh { app with mode := .browse, focus := .memories } closed lists
      idle
  · cases handled
    exact Settled.of_still shows lists idle
  · split at handled
    · cases handled
      exact Settled.of_still shows lists idle
    · split at handled
      · cases handled
        exact Settled.of_still shows lists idle
      · rcases Transition.Checked.bind_eq_ok.mp handled with ⟨query, _, done⟩
        cases done
        exact Settled.of_still shows lists idle
  · cases handled
    exact Settled.of_still shows lists idle

/-! ## One memory -/

omit [AppHost] in
theorem bare_of_detailed {read : Memory → Prop} (detailed : app.front.Detailed read)
    (idle : app.pending = false) :
    ({ app with detail := none, mode := .browse } : App).front.Bare :=
  ⟨idle, rfl, detailed.edit, detailed.contextManager⟩

theorem settled_beginDelete (detailed : app.front.Detailed (timeline.Read app.principal))
    (mode : app.mode = .detail) (idle : app.pending = false) (lists : app.lists.Fit) :
    Settled timeline (app.beginDelete, []) := by
  have shows : app.front.Shows (timeline.Read app.principal) := by
    simp only [Front.Shows, show app.front.mode = .detail from mode]
    exact ⟨detailed, idle⟩
  unfold App.beginDelete
  split
  · exact Settled.of_still shows lists idle
  · split
    · exact Settled.of_still shows lists idle
    · rename_i principal named
      split
      · exact Settled.of_still shows lists idle
      · rename_i detail opened
        split
        · exact Settled.of_still shows lists idle
        · rename_i allowed
          simp only [Bool.or_eq_true, Bool.not_eq_true', not_or, Bool.not_eq_true,
            Bool.not_eq_false] at allowed
          apply Settled.of_still
          · refine ⟨⟨detailed.detail, detailed.edit, detailed.contextManager⟩, ?_⟩
            exact ⟨detail, principal, opened, named, allowed.1, allowed.2⟩
          · exact lists
          · exact idle

theorem shown_new {memory : Memory} {metadata : Option MemoryMetadata}
    {contexts : List ContextDescriptor} {draft : EditDraft}
    (opened : EditDraft.new memory metadata contexts = .ok draft) : draft.Shown := by
  rcases Transition.Checked.bind_eq_ok.mp opened with ⟨content, _, opened⟩
  rcases Transition.Checked.bind_eq_ok.mp opened with ⟨contextsText, _, opened⟩
  rcases Transition.Checked.bind_eq_ok.mp opened with ⟨tags, _, opened⟩
  rcases Transition.Checked.bind_eq_ok.mp opened with ⟨importance, _, opened⟩
  rcases Transition.Checked.bind_eq_ok.mp opened with ⟨expiry, _, opened⟩
  rcases Transition.Checked.bind_eq_ok.mp opened with ⟨metadataText, _, opened⟩
  cases opened
  intro field
  cases field <;> exact ⟨_, TextInput.shows_new _⟩

theorem settled_beginEdit {next : App}
    (detailed : app.front.Detailed (timeline.Read app.principal))
    (mode : app.mode = .detail) (idle : app.pending = false) (lists : app.lists.Fit)
    (handled : app.beginEdit = .ok next) : Settled timeline (next, []) := by
  have shows : app.front.Shows (timeline.Read app.principal) := by
    simp only [Front.Shows, show app.front.mode = .detail from mode]
    exact ⟨detailed, idle⟩
  unfold App.beginEdit at handled
  split at handled
  · cases handled
    exact Settled.of_still shows lists idle
  · split at handled
    · cases handled
      exact Settled.of_still shows lists idle
    · rename_i principal named
      split at handled
      · cases handled
        exact Settled.of_still shows lists idle
      · rename_i detail opened
        split at handled
        · cases handled
          exact Settled.of_still shows lists idle
        · rename_i allowed
          simp only [Bool.or_eq_true, Bool.not_eq_true', not_or, Bool.not_eq_true,
            Bool.not_eq_false] at allowed
          rcases Transition.Checked.bind_eq_ok.mp handled with ⟨draft, drafted, done⟩
          cases done
          apply Settled.of_still
          · exact ⟨detailed.detail, ⟨draft, rfl, shown_new drafted⟩, detailed.contextManager,
              detail, principal, opened, named, allowed.1, allowed.2⟩
          · exact lists
          · exact idle

theorem settled_keyDetail {answer : App × DataEffects} {key : KeyEvent}
    (detailed : app.front.Detailed (timeline.Read app.principal)) (mode : app.mode = .detail)
    (idle : app.pending = false) (lists : app.lists.Fit)
    (handled : app.keyDetail key = .ok answer) : Settled timeline answer := by
  have shows : app.front.Shows (timeline.Read app.principal) := by
    simp only [Front.Shows, show app.front.mode = .detail from mode]
    exact ⟨detailed, idle⟩
  have closed := bare_of_detailed detailed idle
  have scrolled : ∀ scroll : Detail → Nat,
      Settled timeline ({ app with detail := app.detail.map fun detail =>
        { detail with scroll := scroll detail } }, []) := by
    intro scroll
    rcases detailed.detail with ⟨detail, opened, fits⟩
    have present : app.detail = some detail := opened
    apply Settled.of_still
    · simp only [Front.Shows, App.front, mode, present, Option.map_some]
      exact ⟨⟨⟨_, rfl, fits.withScroll (scroll detail)⟩, detailed.edit, detailed.contextManager⟩,
        idle⟩
    · exact lists
    · exact idle
  unfold App.keyDetail at handled
  split at handled
  case h_1 | h_2 | h_3 =>
    cases handled
    exact Settled.of_still closed lists idle
  case h_4 =>
    rcases Transition.Checked.bind_eq_ok.mp handled with ⟨next, begun, done⟩
    cases done
    exact settled_beginEdit detailed mode idle lists begun
  case h_5 =>
    cases handled
    exact settled_beginDelete detailed mode idle lists
  case h_6 | h_7 =>
    cases handled
    exact scrolled fun detail => min (detail.scroll + 1) u16Max
  case h_8 | h_9 =>
    cases handled
    exact scrolled fun detail => detail.scroll - 1
  case h_10 =>
    cases handled
    exact Settled.of_still shows lists idle

/-! ## Mutations -/

omit [AppHost] in
theorem shows_editing (app : App) {read : Memory → Prop} (editing : app.front.Editing read)
    (mode : app.mode = .edit) : app.front.Shows read := by
  simp only [Front.Shows, show app.front.mode = .edit from mode]
  exact editing

omit [AppHost] in
theorem shows_confirming (app : App) {read : Memory → Prop} (detailed : app.front.Detailed read)
    (writable : app.front.Writable) (mode : app.mode = .confirmDelete) :
    app.front.Shows read := by
  simp only [Front.Shows, show app.front.mode = .confirmDelete from mode]
  exact ⟨detailed, writable⟩

theorem settled_spawnSave (editing : app.front.Editing (timeline.Read app.principal))
    (mode : app.mode = .edit) (idle : app.pending = false) (unclosed : app.quit = false)
    (lists : app.lists.Fit) : Settled timeline app.spawnSave := by
  have shows := shows_editing app editing mode
  unfold App.spawnSave
  split
  · exact Settled.of_still shows lists idle
  · split
    · exact Settled.of_still shows lists idle
    · rename_i principal named
      split
      · exact Settled.of_still shows lists idle
      · exact Settled.of_still shows lists idle
      · rename_i detail draft opened drafted
        split
        · rename_i error _
          apply Settled.of_still
          · refine shows_editing { app with
              edit := some { draft with field := error.field }
              status := .notHeld error.message } ?_ mode
            rcases editing.edit with ⟨other, same, shown⟩
            cases drafted.symm.trans same
            exact ⟨editing.detail, ⟨_, rfl, shown.withField error.field⟩, editing.contextManager,
              editing.writable⟩
          · exact lists
          · exact idle
        · rename_i parsed reads
          split
          · apply Settled.of_still
            · exact ⟨⟨editing.detail, rfl, editing.contextManager⟩, idle⟩
            · exact lists
            · exact idle
          · constructor
            · exact shows_editing (app.beginMutation (.note "holding revision…"))
                ⟨editing.detail, editing.edit, editing.contextManager, editing.writable⟩ mode
            · exact lists
            · rfl
            · exact fun _ => unclosed
            · intro effect present
              rcases List.mem_singleton.mp present with rfl
              exact ⟨⟨⟨mode, rfl⟩, named, detail, opened, rfl, rfl⟩, draft, drafted, reads⟩

theorem settled_spawnDelete (detailed : app.front.Detailed (timeline.Read app.principal))
    (writable : app.front.Writable) (mode : app.mode = .confirmDelete) (idle : app.pending = false)
    (unclosed : app.quit = false) (lists : app.lists.Fit) :
    Settled timeline app.spawnDelete := by
  have shows := shows_confirming app detailed writable mode
  unfold App.spawnDelete
  split
  · exact Settled.of_still shows lists idle
  · split
    · exact Settled.of_still shows lists idle
    · rename_i principal named
      split
      · exact Settled.of_still shows lists idle
      · rename_i detail opened
        constructor
        · exact shows_confirming (app.beginMutation (.note "forgetting memory…"))
            ⟨detailed.detail, detailed.edit, detailed.contextManager⟩ writable mode
        · exact lists
        · rfl
        · exact fun _ => unclosed
        · intro effect present
          rcases List.mem_singleton.mp present with rfl
          exact ⟨⟨mode, rfl⟩, named, detail, opened, rfl, rfl⟩

omit [AppHost] in
theorem shown_editDraft {draft edited : EditDraft} {key : KeyEvent} (shown : draft.Shown)
    (pressed : App.editDraft draft key = .ok edited) : edited.Shown := by
  unfold App.editDraft at pressed
  split at pressed
  · rename_i keystroke _
    rcases shown.press keystroke with ⟨next, ran, nextShown⟩ | full
    · cases ran.symm.trans pressed
      exact nextShown
    · cases full.symm.trans pressed
  · cases pressed
    exact shown.withField _

theorem settled_keyEdit {answer : App × DataEffects} {key : KeyEvent}
    (editing : app.front.Editing (timeline.Read app.principal)) (mode : app.mode = .edit)
    (idle : app.pending = false) (unclosed : app.quit = false) (lists : app.lists.Fit)
    (handled : app.keyEdit key = .ok answer) : Settled timeline answer := by
  rcases editing.edit with ⟨draft, drafted, shown⟩
  unfold App.keyEdit at handled
  split at handled
  · rename_i pending
    cases idle.symm.trans pending
  · split at handled
    · cases handled
      exact settled_spawnSave editing mode idle unclosed lists
    · split at handled
      · rename_i absent
        cases absent.symm.trans drafted
      rename_i other present
      cases present.symm.trans drafted
      split at handled
      · split at handled
        · rcases Transition.Checked.bind_eq_ok.mp handled with ⟨scrolled, visible, done⟩
          rcases shown.ensureCursorVisible with ⟨scroll, ensured⟩
          cases ensured.symm.trans visible
          cases done
          apply Settled.of_still
          · exact ⟨⟨editing.detail, ⟨_, rfl, shown.withScroll scroll⟩, editing.contextManager,
              editing.writable⟩, idle⟩
          · exact lists
          · exact idle
        · cases handled
          apply Settled.of_still
          · exact ⟨⟨editing.detail, rfl, editing.contextManager⟩, idle⟩
          · exact lists
          · exact idle
      · rcases Transition.Checked.bind_eq_ok.mp handled with ⟨edited, pressed, handled⟩
        rcases Transition.Checked.bind_eq_ok.mp handled with ⟨scrolled, visible, done⟩
        have editedShown := shown_editDraft shown pressed
        rcases editedShown.ensureCursorVisible with ⟨scroll, ensured⟩
        cases ensured.symm.trans visible
        cases done
        apply Settled.of_still
        · exact shows_editing { app with edit := some { edited with scroll } }
            ⟨editing.detail, ⟨_, rfl, editedShown.withScroll scroll⟩, editing.contextManager,
              editing.writable⟩ mode
        · exact lists
        · exact idle

theorem settled_keyConfirmDelete (detailed : app.front.Detailed (timeline.Read app.principal))
    (writable : app.front.Writable) (mode : app.mode = .confirmDelete) (idle : app.pending = false)
    (unclosed : app.quit = false) (lists : app.lists.Fit) (key : KeyEvent) :
    Settled timeline (app.keyConfirmDelete key) := by
  have shows := shows_confirming app detailed writable mode
  have back : ({ app with mode := .detail } : App).front.Shows (timeline.Read app.principal) :=
    ⟨⟨detailed.detail, detailed.edit, detailed.contextManager⟩, idle⟩
  unfold App.keyConfirmDelete
  split
  · exact Settled.of_still shows lists idle
  · split
    · exact settled_spawnDelete detailed writable mode idle unclosed lists
    · exact Settled.of_still back lists idle
    · exact Settled.of_still back lists idle
    · exact Settled.of_still shows lists idle

theorem settled_keyConfirmDiscard (editing : app.front.Editing (timeline.Read app.principal))
    (mode : app.mode = .confirmDiscard) (idle : app.pending = false) (lists : app.lists.Fit)
    (key : KeyEvent) : Settled timeline (app.keyConfirmDiscard key, []) := by
  have back : ({ app with mode := .edit } : App).front.Shows (timeline.Read app.principal) :=
    ⟨editing.detail, editing.edit, editing.contextManager, editing.writable⟩
  unfold App.keyConfirmDiscard
  split
  · apply Settled.of_still
    · exact ⟨⟨editing.detail, rfl, editing.contextManager⟩, idle⟩
    · exact lists
    · exact idle
  · exact Settled.of_still back lists idle
  · exact Settled.of_still back lists idle
  · apply Settled.of_still
    · simp only [Front.Shows, show app.front.mode = .confirmDiscard from mode]
      exact ⟨editing, idle⟩
    · exact lists
    · exact idle

/-! ## The context manager -/

omit [AppHost] in
/-- The manager is open, and no pane is under edit. -/
theorem shows_managing (app : App) {read : Memory → Prop} {manager : ContextManager}
    (managing : app.front.Managing) (mode : app.mode = .contextManager)
    (opened : app.contextManager = some manager) (closed : manager.edit = none) :
    app.front.Shows read := by
  simp only [Front.Shows, show app.front.mode = .contextManager from mode]
  exact ⟨managing, manager, opened, closed⟩

theorem settled_withManager {manager : ContextManager} (managing : app.front.Managing)
    (mode : app.mode = .contextManager) (closed : manager.edit = none) (lists : app.lists.Fit) :
    Settled timeline (app.withManager manager, []) := by
  apply Settled.of_still
  · exact shows_managing (app.withManager manager)
      ⟨managing.pending, managing.detail, managing.edit⟩ mode rfl closed
  · exact lists
  · exact managing.pending

theorem settled_beginContextManagerEdit {manager : ContextManager}
    (managing : app.front.Managing) (mode : app.mode = .contextManager)
    (opened : app.contextManager = some manager) (closed : manager.edit = none)
    (lists : app.lists.Fit) : Settled timeline (app.beginContextManagerEdit, []) := by
  have shows : app.front.Shows (timeline.Read app.principal) :=
    shows_managing app managing mode opened closed
  unfold App.beginContextManagerEdit
  split
  · exact Settled.of_still shows lists managing.pending
  · rename_i principal named
    dsimp only
    split
    · exact Settled.of_still shows lists managing.pending
    · rw [opened]
      apply Settled.of_still
      · refine ⟨⟨managing.pending, managing.detail, managing.edit⟩, ?_, _, _, _, rfl, rfl,
          TextInput.shows_new _⟩
        exact Option.isSome_of_eq_some named
      · exact lists
      · exact managing.pending

theorem settled_reloadContextManager {manager : ContextManager} (managing : app.front.Managing)
    (mode : app.mode = .contextManager) (opened : app.contextManager = some manager)
    (closed : manager.edit = none) (lists : app.lists.Fit) :
    Settled timeline (app.reloadContextManager engine, []) := by
  unfold App.reloadContextManager
  split
  · rename_i absent
    cases absent.symm.trans opened
  rename_i other present
  cases present.symm.trans opened
  split
  · rename_i fresh loaded
    apply Settled.of_still
    · exact shows_managing { app with
        contextManager := some fresh
        status := .held "context manager refreshed" }
        ⟨managing.pending, managing.detail, managing.edit⟩ mode rfl
        (edit_of_loadContextManager loaded)
    · exact lists
    · exact managing.pending
  · rename_i error _
    apply Settled.of_still
    · exact shows_managing { app with
        status := .notHeld ("context manager refresh failed: " ++ error) }
        ⟨managing.pending, managing.detail, managing.edit⟩ mode opened closed
    · exact lists
    · exact managing.pending

theorem settled_keyContextManager {manager : ContextManager}
    (managing : app.front.Managing) (mode : app.mode = .contextManager)
    (opened : app.contextManager = some manager) (closed : manager.edit = none)
    (lists : app.lists.Fit) (key : KeyEvent) :
    Settled timeline (app.keyContextManager engine key, []) := by
  have shows : app.front.Shows (timeline.Read app.principal) :=
    shows_managing app managing mode opened closed
  unfold App.keyContextManager
  rw [opened]
  dsimp only
  split
  case h_1 | h_2 =>
    apply Settled.of_still
    · exact ⟨managing.pending, managing.detail, managing.edit, rfl⟩
    · exact lists
    · exact managing.pending
  case h_3 | h_4 | h_5 | h_6 | h_7 | h_8 | h_9 | h_10 | h_11 | h_12 =>
    exact settled_withManager managing mode closed lists
  case h_13 => exact settled_beginContextManagerEdit managing mode opened closed lists
  case h_14 => exact settled_reloadContextManager managing mode opened closed lists
  case h_15 => exact Settled.of_still shows lists managing.pending

/-- A pane is under edit. -/
structure EditingPane (app : App) (manager : ContextManager) (edit : ContextManagerEdit) :
    Prop where
  managing : app.front.Managing
  principal : app.principal.isSome = true
  opened : app.contextManager = some manager
  edited : manager.edit = some edit
  shown : ∃ caret, edit.input.Shows caret

omit [AppHost] in
theorem shows_pane (app : App) (manager : ContextManager) (edit : ContextManagerEdit)
    {read : Memory → Prop} (pane : EditingPane app manager edit)
    (mode : app.mode = .contextManagerEdit ∨ app.mode = .confirmContextDiscard) :
    app.front.Shows read := by
  rcases pane.shown with ⟨caret, shown⟩
  unfold Front.Shows
  rcases mode with mode | mode
  · rw [show app.front.mode = .contextManagerEdit from mode]
    exact ⟨pane.managing, pane.principal, manager, edit, caret, pane.opened, pane.edited, shown⟩
  · rw [show app.front.mode = .confirmContextDiscard from mode]
    exact ⟨pane.managing, pane.principal, manager, edit, caret, pane.opened, pane.edited, shown⟩

theorem settled_discardPane {manager : ContextManager} {edit : ContextManagerEdit}
    (pane : EditingPane app manager edit) (lists : app.lists.Fit) :
    Settled timeline ({ app with
      contextManager := app.contextManager.map fun manager => { manager with edit := none }
      mode := .contextManager }, []) := by
  rw [pane.opened]
  apply Settled.of_still
  · exact ⟨⟨pane.managing.pending, pane.managing.detail, pane.managing.edit⟩, _, rfl, rfl⟩
  · exact lists
  · exact pane.managing.pending

theorem settled_saveContextManagerEdit {manager : ContextManager} {edit : ContextManagerEdit}
    (pane : EditingPane app manager edit) (mode : app.mode = .contextManagerEdit)
    (lists : app.lists.Fit) : Settled timeline (app.saveContextManagerEdit engine) := by
  unfold App.saveContextManagerEdit
  split
  · rename_i unnamed
    cases (Option.isSome_iff_ne_none.mp pane.principal) unnamed
  split
  · rename_i absent
    cases absent.symm.trans pane.opened
  rename_i other present
  cases present.symm.trans pane.opened
  split
  · rename_i absent
    cases absent.symm.trans pane.edited
  rename_i otherEdit edited
  cases edited.symm.trans pane.edited
  dsimp only
  split
  · rename_i error _
    apply Settled.of_still
    · refine shows_pane { app with pending := false, status := .notHeld error } manager edit ?_
        (Or.inl mode)
      exact ⟨⟨rfl, pane.managing.detail, pane.managing.edit⟩, pane.principal, pane.opened,
        pane.edited, pane.shown⟩
    · exact lists
    · rfl
  · split
    · rename_i loaded fresh
      apply settled_refreshAll
      · exact ⟨⟨rfl, pane.managing.detail, pane.managing.edit⟩, loaded, rfl,
          edit_of_loadContextManager fresh⟩
      · refine ⟨lists.rows, lists.rowSelected, lists.contextCursor, lists.selected.filter _, ?_⟩
        intro id present
        exact lists.selectable id (List.mem_of_mem_filter present)
      · rfl
    · apply settled_refreshAll
      · exact ⟨rfl, pane.managing.detail, pane.managing.edit, rfl⟩
      · exact lists
      · rfl

omit [AppHost] in
theorem shown_editPane {edit edited : ContextManagerEdit} {key : KeyEvent}
    (shown : ∃ caret, edit.input.Shows caret) (pressed : App.editPane edit key = .ok edited) :
    ∃ caret, edited.input.Shows caret := by
  rcases shown with ⟨caret, shows⟩
  unfold App.editPane at pressed
  split at pressed
  · cases pressed
    exact ⟨caret, shows⟩
  · rename_i keystroke _
    rcases Transition.Checked.bind_eq_ok.mp pressed with ⟨input, ran, done⟩
    cases done
    rcases shows.press_eq keystroke with ⟨next, stepped, nextShows⟩ | full
    · cases stepped.symm.trans ran
      exact ⟨_, nextShows⟩
    · cases full.symm.trans ran

theorem settled_keyContextManagerEdit {answer : App × DataEffects} {key : KeyEvent}
    {manager : ContextManager} {edit : ContextManagerEdit} (pane : EditingPane app manager edit)
    (mode : app.mode = .contextManagerEdit) (lists : app.lists.Fit)
    (handled : app.keyContextManagerEdit engine key = .ok answer) : Settled timeline answer := by
  have idle : app.pending = false := pane.managing.pending
  unfold App.keyContextManagerEdit at handled
  split at handled
  · rename_i pending
    cases idle.symm.trans pending
  · split at handled
    · cases handled
      exact settled_saveContextManagerEdit pane mode lists
    · split at handled
      · split at handled
        · cases handled
          apply Settled.of_still
          · refine shows_pane { app with mode := .confirmContextDiscard } manager edit ?_ (Or.inr rfl)
            exact ⟨⟨idle, pane.managing.detail, pane.managing.edit⟩, pane.principal, pane.opened,
              pane.edited, pane.shown⟩
          · exact lists
          · exact idle
        · cases handled
          exact settled_discardPane pane lists
      · split at handled
        · rename_i absent
          cases absent.symm.trans pane.opened
        rename_i other present
        cases present.symm.trans pane.opened
        split at handled
        · rename_i absent
          cases absent.symm.trans pane.edited
        rename_i otherEdit current
        cases current.symm.trans pane.edited
        rcases Transition.Checked.bind_eq_ok.mp handled with ⟨edited, pressed, done⟩
        cases done
        apply Settled.of_still
        · refine shows_pane { app with
            contextManager := some { manager with edit := some edited } }
            { manager with edit := some edited } edited ?_ (Or.inl mode)
          exact ⟨⟨idle, pane.managing.detail, pane.managing.edit⟩, pane.principal, rfl, rfl,
            shown_editPane pane.shown pressed⟩
        · exact lists
        · exact idle

theorem settled_keyConfirmContextDiscard {manager : ContextManager} {edit : ContextManagerEdit}
    (pane : EditingPane app manager edit) (mode : app.mode = .confirmContextDiscard)
    (lists : app.lists.Fit) (key : KeyEvent) :
    Settled timeline (app.keyConfirmContextDiscard key, []) := by
  have idle : app.pending = false := pane.managing.pending
  have back : ({ app with mode := .contextManagerEdit } : App).front.Shows
      (timeline.Read app.principal) := by
    refine shows_pane { app with mode := .contextManagerEdit } manager edit ?_ (Or.inl rfl)
    exact ⟨⟨idle, pane.managing.detail, pane.managing.edit⟩, pane.principal, pane.opened,
      pane.edited, pane.shown⟩
  unfold App.keyConfirmContextDiscard
  split
  · exact settled_discardPane pane lists
  · exact Settled.of_still back lists idle
  · exact Settled.of_still back lists idle
  · exact Settled.of_still (shows_pane app manager edit pane (Or.inr mode)) lists idle

end Modes

end LocalHold
