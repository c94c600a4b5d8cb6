import LocalHold.Store.Optimistic
import LocalHold.Store.Reads
import LocalHold.Ui.App

/-!
# Sessions of the terminal interface

The event loop of `mod.rs` with its background tasks, over a store that other
processes write to as well.  A task reads the store when it runs; a save or a
deletion is one store command, and a save reads the memory back in a second
part.  The store remembers every database it has been.
-/

namespace LocalHold

open Transition Transition.EventLoop

/-- The store as it has been: the present database and the earlier ones. -/
structure Timeline where
  present : Db
  past : List Db

namespace Timeline

/-- Every database so far. -/
def moments (timeline : Timeline) : List Db :=
  timeline.present :: timeline.past

/-- A transaction has committed. -/
def commit (timeline : Timeline) (next : Db) : Timeline :=
  ⟨next, timeline.moments⟩

end Timeline

/-- What a background task meets when one of its parts runs. -/
inductive TaskAnswer where
  | listed (result : Except String (List Memory))
  | searched (result : Except String (List Row × SearchMode))
  | catalog (engine : EngineAnswers)
  | refused (message : String)
  | wrote (handle : StoreHandle) (now : Instant)
  | read (engine : EngineAnswers) (now : Instant)

/-- An event of the terminal, with what the engine answers meanwhile. -/
structure UiInput where
  event : TerminalEvent
  engine : EngineAnswers
  now : Instant

section Tasks

/-- A reading engine over a database: a memory that is read at all is read as
the database holds it. -/
def EngineAnswers.over (engine : EngineAnswers) (db : Db) (principal : Option String)
    (now : Instant) : EngineAnswers :=
  { engine with
    getMemory := fun id => (engine.getMemory id).map fun _ => db.getMemory id principal now }

/-- The audit of an edit. -/
def updateAudit (edit : ParsedEdit) (principal : String) (now : Instant) : AuditDraft where
  action := .update
  callerAgent := some principal
  timestamp := now
  details := some (.object
    [("metadata", .bool edit.metadataPatch.isSome),
      ("contexts_replaced", .bool edit.contextIds.isSome),
      ("interactive", .bool true)])

/-- The context audit of an edit that replaces the contexts. -/
def replacementAudit (id : MemoryId) (edit : ParsedEdit) (principal : String) :
    Option ContextAuditDraft :=
  edit.contextIds.map fun ids => {
    actorPrincipal := principal
    action := "memory_contexts_replaced"
    contextId := none
    memoryId := some id
    details := some (.object
      [("context_ids", .array (ids.map fun contextId => .string contextId.display))]) }

/-- The audit of a deletion. -/
def deleteAudit (principal : String) (now : Instant) : AuditDraft where
  action := .delete
  callerAgent := some principal
  timestamp := now
  details := some (.object [("interactive", .bool true)])

/-- `prepare_update` of the fields that the editor changes. -/
def prepareUpdate (update : MemoryUpdate) : MemoryUpdate :=
  { update with tags := update.tags.map fun tags => tags.map trim }

/-- The store command of a save. -/
def saveCall (handle : StoreHandle) (now : Instant) (id : MemoryId) (expectedRevision : Int)
    (edit : ParsedEdit) (principal : String) : StoreCall :=
  ⟨handle, now, .updateIfUnmodified id expectedRevision (prepareUpdate edit.update)
    edit.metadataPatch edit.contextIds none principal (updateAudit edit principal now)
    (replacementAudit id edit principal)⟩

/-- The store command of a deletion. -/
def deleteCall (handle : StoreHandle) (now : Instant) (id : MemoryId) (expectedRevision : Int)
    (principal : String) : StoreCall :=
  ⟨handle, now, .deleteIfUnmodified id expectedRevision principal (deleteAudit principal now)⟩

/-- The message of a task that could not do its mutation. -/
def refusedSave : String :=
  "this principal cannot modify the selected memory"

/-- The message of a refused deletion. -/
def refusedDelete : String :=
  "this principal cannot delete the selected memory"

/-- `refresh_updated_detail`. -/
def refreshUpdatedDetail (engine : EngineAnswers) (id : MemoryId) (generation : Nat) : DataMsg :=
  match engine.getMemory id with
  | .ok (some memory) =>
      let (metadata, metadataWarning) :=
        match engine.getMetadata id with
        | .ok metadata => (metadata, none)
        | .error error => (none, some ("metadata refresh failed: " ++ error))
      let (audit, auditWarning) :=
        match engine.queryAuditLog id with
        | .ok audit => (audit, none)
        | .error error => ([], some ("history refresh failed: " ++ error))
      let (contexts, contextWarning) :=
        match engine.getMemoryContexts id with
        | .ok contexts => (contexts, none)
        | .error error => ([], some ("context refresh failed: " ++ error))
      let warnings := [metadataWarning, auditWarning, contextWarning].filterMap fun warning =>
        warning
      .updated memory metadata audit contexts
        (if warnings.isEmpty then none else some (String.intercalate "; " warnings)) generation
  | .ok none => .updatedInvisible id generation
  | .error error => .updatedUnrefreshed id error generation

/-- The message of a catalog task. -/
def catalogMessage (engine : EngineAnswers) (generation : Nat) : DataMsg :=
  match engine.countMemories with
  | .ok total =>
      let (records, policy, warning) := App.catalogOrWarning (App.loadContextCatalog engine)
      .contextCatalog records policy total warning generation
  | .error error =>
      .contextCatalogFailed ("governed memory count unavailable: " ++ error) generation

variable [Host]

/-- The transaction of a save and what follows it. -/
def performSave (timeline : Timeline) (handle : StoreHandle) (now : Instant) (id : MemoryId)
    (expectedRevision : Int) (edit : ParsedEdit) (principal : String) (generation : Nat) :
    Timeline × PartResult DataTask DataMsg :=
  match updateAuthorizedIfUnmodified handle.dimensions handle.activeProfile id expectedRevision
      (prepareUpdate edit.update) edit.metadataPatch edit.contextIds none principal
      (updateAudit edit principal now) (replacementAudit id edit principal) now
      timeline.present with
  | .error error => (timeline, .report (.mutationFailed error.display generation))
  | .ok (result, next) =>
      (timeline.commit next,
        match result.outcome with
        | .applied => .resume (.refreshDetail id principal generation)
        | .notFound => .report (.missing id generation)
        | .denied => .report (.mutationFailed refusedSave generation))

omit [Host] in
/-- The transaction of a deletion and its message. -/
def performDelete (timeline : Timeline) (now : Instant) (id : MemoryId)
    (expectedRevision : Int) (principal : String) (generation : Nat) :
    Timeline × PartResult DataTask DataMsg :=
  match deleteAuthorizedIfUnmodified id expectedRevision principal (deleteAudit principal now) now
      timeline.present with
  | .error error => (timeline, .report (.mutationFailed error.display generation))
  | .ok (outcome, next) =>
      (timeline.commit next,
        .report (match outcome with
          | .applied => .deleted id generation
          | .notFound => .missing id generation
          | .denied => .mutationFailed refusedDelete generation))

/-- One part of a background task. -/
def performTask (timeline : Timeline) (task : DataTask) (answer : TaskAnswer) :
    Option (Timeline × PartResult DataTask DataMsg) :=
  match task, answer with
  | .list _ generation, .listed (.ok memories) =>
      some (timeline, .report (.rows (memories.map fun memory => ⟨memory, none⟩) none generation))
  | .list _ generation, .listed (.error message) =>
      some (timeline, .report (.failed message generation))
  | .search _ _ _ generation, .searched (.ok (rows, mode)) =>
      some (timeline, .report (.rows rows (some mode) generation))
  | .search _ _ _ generation, .searched (.error message) =>
      some (timeline, .report (.failed message generation))
  | .catalog generation, .catalog engine =>
      some (timeline, .report (catalogMessage engine generation))
  | .save _ _ _ _ generation, .refused message =>
      some (timeline, .report (.mutationFailed message generation))
  | .save id expectedRevision edit principal generation, .wrote handle now =>
      some (performSave timeline handle now id expectedRevision edit principal generation)
  | .refreshDetail id principal generation, .read engine now =>
      some (timeline, .report (refreshUpdatedDetail
        (engine.over timeline.present (some principal) now) id generation))
  | .delete _ _ _ generation, .refused message =>
      some (timeline, .report (.mutationFailed message generation))
  | .delete id expectedRevision principal generation, .wrote _ now =>
      some (performDelete timeline now id expectedRevision principal generation)
  | _, _ => none

end Tasks

section Sessions

variable [AppHost]

/-- `event_loop` with its background tasks and the other writers of the store. -/
def uiLoop : Loop App Timeline UiInput DataTask TaskAnswer DataMsg StoreCall where
  handle timeline app input :=
    (app.onEvent (input.engine.over timeline.present app.principal input.now) input.event).toOption
  receive := App.onData
  perform := performTask
  drift timeline call := (storeStep timeline.present call).map timeline.commit
  closed := App.quit

/-- A moment of a session. -/
abbrev UiMoment : Type :=
  Situation App Timeline DataTask DataMsg

/-- What happens in a session. -/
abbrev UiHappening : Type :=
  Happening UiInput TaskAnswer StoreCall

omit [AppHost] in
/-- A session begins with the first catalog and the first listing. -/
def UiMoment.start (principal : Option String) (engine : EngineAnswers) (db : Db) : UiMoment :=
  Situation.respond ⟨App.new principal, ⟨db, []⟩, [], []⟩ ((App.new principal).bootstrap engine)

/-- A moment that a session reaches. -/
def UiMoment.Reached (moment : UiMoment) : Prop :=
  ∃ principal engine db happenings,
    run uiLoop.step (UiMoment.start principal engine db) happenings = some moment

end Sessions

/-! ## One memory -/

/-- An engine without contexts, history or metadata. -/
def quietEngine : EngineAnswers where
  getMemory _ := .ok none
  queryAuditLog _ := .ok []
  getMetadata _ := .ok none
  getMemoryContexts _ := .ok []
  countMemories := .ok 1
  listContextRecords := .ok []
  listContextKinds := .ok []
  listContextGrants _ := .ok []
  listContextKindPolicies := .ok []
  listContextAnchorPolicies := .ok []
  queryContextAudit _ := .ok ()
  expandContextSelection _ _ := .ok []
  mutationEngine := .ok ()
  applyContextManagerEdit _ _ _ := .ok ()

/-- A public memory of its owner. -/
def oneMemory : Memory :=
  Memory.plain ⟨1⟩ "owner" "text" 0

/-- A store that holds it. -/
def oneMemoryDb : Db :=
  { Db.empty 1 with
    memories := ⟨[preparedMemoryRow ⟨oneMemory, none⟩], List.nodup_singleton _⟩ }

/-- A plain key. -/
def pressed (code : KeyCode) : UiHappening :=
  .input ⟨.key ⟨code, true, false, false⟩, quietEngine, 1⟩

/-- The owner lists the store and opens the memory. -/
def opening : List UiHappening :=
  [.advance 0 (.listed (.ok [oneMemory])), .deliver, pressed .enter]

/-- The moment after a session of the owner. -/
def afterSession (happenings : List UiHappening) : Option UiMoment :=
  run (@uiLoop asciiAppHost).step (UiMoment.start (some "owner") quietEngine oneMemoryDb)
    (opening ++ happenings)

theorem reached_afterSession {happenings : List UiHappening} {moment : UiMoment}
    (reaches : afterSession happenings = some moment) : @UiMoment.Reached asciiAppHost moment :=
  ⟨some "owner", quietEngine, oneMemoryDb, opening ++ happenings, reaches⟩

end LocalHold
