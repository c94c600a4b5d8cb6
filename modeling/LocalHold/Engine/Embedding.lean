import LocalHold.Store.Commands

/-!
# Embedding workers

Several server processes share one database.  A process stores and updates
memories, hands the content to its embedding provider and writes the vector
back under the embedding revision it noted.  Every transaction, and every
statement outside one, is a step of its own, so the steps of different
processes interleave in any order.

A process may stop at any point; its work in flight is then lost.
-/

namespace LocalHold

open Relational Transition Transition.Txn

/-- A running process: what it brings to store calls, and the profile under
which its provider computes vectors. -/
structure EngineProcess where
  handle : StoreHandle
  provider : EmbeddingProfile
deriving DecidableEq

/-- `EmbedWork`: a content to embed and the revision it belongs to. -/
structure EmbedWork where
  id : MemoryId
  content : String
  expectedRevision : Int
  claimToken : Option String
deriving DecidableEq

/-- Work in flight in some process. -/
inductive EmbedTask where
  /-- `get_for_reembed` has read the content and not yet the revision. -/
  | contentRead (process : EngineProcess) (id : MemoryId) (content : String)
  /-- The provider is working. -/
  | queued (process : EngineProcess) (work : EmbedWork)
  /-- The provider has answered. -/
  | computed (process : EngineProcess) (work : EmbedWork) (embedding : Embedding)
deriving DecidableEq

/-- `maybe_reembed_after_update`: the work an update leaves behind. -/
def reembedWork (id : MemoryId) (changes : MemoryUpdate)
    (result : Except StoreError (AuthorizedUpdateOutcome × Db)) : List EmbedWork :=
  match result with
  | .error _ => []
  | .ok (outcome, _) =>
      match decide (outcome.outcome = .applied), changes.content, outcome.reembedRevision with
      | true, some content, some revision => [⟨id, content, revision, none⟩]
      | _, _, _ => []

/-- The work of a store; a new row has embedding revision zero. -/
def storedWork {α : Type} (items : List MemoryWithEmbedding)
    (result : Except StoreError (α × Db)) : List EmbedWork :=
  match result with
  | .error _ => []
  | .ok _ => items.map fun item => ⟨item.memory.id, item.memory.content, 0, none⟩

/-- The work of a claim. -/
def claimedWork (result : Except StoreError (List ReembedClaim × Db)) : List EmbedWork :=
  match result with
  | .error _ => []
  | .ok (claims, _) => claims.map fun claim =>
      ⟨claim.id, claim.content, claim.embeddingRevision, some claim.claimToken⟩

/-- The embedding work that a process takes on after a store call. -/
def StoreCall.embedWork [Host] (call : StoreCall) (db : Db) : List EmbedWork :=
  match call.command with
  | .updateAuthorized id changes principal audit =>
      reembedWork id changes (updateAuthorized id changes principal audit call.now db)
  | .updateAuthorizedWithMetadata id changes patch principal audit =>
      reembedWork id changes
        (updateAuthorizedWithMetadata id changes patch principal audit call.now db)
  | .updateAuthorizedWithMetadataContexts id changes patch contextIds principal audit
      contextAudit =>
      reembedWork id changes
        (updateAuthorizedWithMetadataContexts id changes patch contextIds principal audit
          contextAudit call.now db)
  | .updateIfUnmodified id expectedRevision changes patch contextIds embedding principal audit
      contextAudit =>
      reembedWork id changes
        (updateAuthorizedIfUnmodified call.handle.dimensions call.handle.activeProfile id
          expectedRevision changes patch contextIds embedding principal audit contextAudit
          call.now db)
  | .claimForReembed principal limit token =>
      claimedWork (claimForReembed principal limit token call.now db)
  | command => storedWork command.storedItems (command.body call.handle call.now db)

/-- Whether every vector a command carries was computed by the provider from
the content it accompanies.  Vectors computed in the background are not carried
by a command; they are written back by the worker. -/
def StoreCommand.carriesOwnVectors (provider : EmbeddingProfile) (command : StoreCommand) :
    Bool :=
  match command with
  | .setEmbedding _ _ _ => false
  | .updateIfUnmodified _ _ changes _ _ embedding _ _ _ =>
      embedding.all fun vector =>
        changes.content == some vector.source && vector.profile == provider
  | command => command.storedItems.all fun item => item.embedding.all fun vector =>
      vector.source == item.memory.content && vector.profile == provider

/-- The shared database and all work in flight. -/
structure World where
  db : Db
  tasks : List EmbedTask

/-- A step of some process. -/
inductive WorldAction where
  /-- A store call; the work it leaves behind is queued. -/
  | call (process : EngineProcess) (now : Instant) (command : StoreCommand)
  /-- The first statement of `get_for_reembed`. -/
  | readContent (process : EngineProcess) (id : MemoryId) (principal : String)
  /-- The second statement of `get_for_reembed`. -/
  | readRevision (position : Nat)
  /-- The provider answers. -/
  | complete (position : Nat) (values : List Component)
  /-- `apply_embedding_result` writes the vector back. -/
  | writeBack (position : Nat) (now : Instant)
  /-- A failed provider call, a coalesced duplicate or a stopped process. -/
  | abandon (position : Nat)

/-- The write-back of a computed vector. -/
def writeBackCall (process : EngineProcess) (work : EmbedWork) (embedding : Embedding)
    (now : Instant) : StoreCall :=
  ⟨process.handle, now, .setEmbedding work.id embedding work.expectedRevision⟩

/-- One step of the system; an action that does not apply is not enabled. -/
def worldStep [Host] (world : World) (action : WorldAction) : Option World :=
  match action with
  | .call process now command =>
      if command.carriesOwnVectors process.provider then
        let call : StoreCall := ⟨process.handle, now, command⟩
        (storeStep world.db call).map fun next =>
          ⟨next, world.tasks ++ (call.embedWork world.db).map (.queued process)⟩
      else none
  | .readContent process id principal =>
      match contentForReembed id principal world.db with
      | .ok (some content, _) =>
          some { world with tasks := world.tasks ++ [.contentRead process id content] }
      | _ => none
  | .readRevision position =>
      match world.tasks[position]? with
      | some (.contentRead process id content) =>
          match embeddingRevision id world.db with
          | .ok (revision, _) =>
              some { world with
                tasks := world.tasks.set position (.queued process ⟨id, content, revision, none⟩) }
          | .error _ => some { world with tasks := world.tasks.eraseIdx position }
      | _ => none
  | .complete position values =>
      match world.tasks[position]? with
      | some (.queued process work) =>
          some { world with
            tasks := world.tasks.set position
              (.computed process work ⟨values, work.content, process.provider⟩) }
      | _ => none
  | .writeBack position now =>
      match world.tasks[position]? with
      | some (.computed process work embedding) =>
          (storeStep world.db (writeBackCall process work embedding now)).map fun next =>
            ⟨next, world.tasks.eraseIdx position⟩
      | _ => none
  | .abandon position => some { world with tasks := world.tasks.eraseIdx position }

end LocalHold
