import LocalHold.Engine.Embedding
import LocalHold.Paging.Chunks
import LocalHold.Transition.Programs

/-!
# Embedding batches

Claimed work is cut into chunks.  A chunk is handed to a background task, which
embeds it in one request, falls back to one request for each item when the
batch is rejected, and writes every result back; work that is not embedded has
its claim released.  The scheduler and its tasks run over one store and one set
of memories in flight, beside everything else the server does.
-/

namespace LocalHold

open Paging Transition Transition.Program

/-! ## Requests -/

/-- The memory and revision of an item. -/
def EmbedWork.key (work : EmbedWork) : MemoryId × Int :=
  (work.id, work.expectedRevision)

/-- `EmbeddingError`. -/
inductive EmbeddingError where
  | transient (source : String)
  | rateLimited (source : String) (retryAfter : Option Nat)
  | permanent (source : String)
  | disabled
deriving DecidableEq, Repr

/-- What the scheduler and its tasks ask of their surroundings. -/
inductive BatchRequest where
  /-- `begin_inflight_embed`. -/
  | beginInflightEmbed (id : MemoryId) (expectedRevision : Int)
  /-- The guard of a memory in flight is dropped. -/
  | dropInflightEmbed (id : MemoryId) (expectedRevision : Int)
  /-- `EmbedAdmission::spawn` of `run_batch`. -/
  | spawnBatch (tracked : List EmbedWork)
  /-- `EmbeddingProvider::embed_batch`. -/
  | embedBatch (texts : List String)
  /-- `EmbeddingProvider::embed`. -/
  | embed (text : String)
  | setEmbedding (id : MemoryId) (embedding : Embedding) (expectedRevision : Int)
  | releaseEmbeddingClaim (id : MemoryId) (expectedRevision : Int) (claimToken : String)

/-- The answers to a request. -/
abbrev BatchRequest.Answer : BatchRequest → Type
  | .beginInflightEmbed _ _ => Bool
  | .dropInflightEmbed _ _ => Unit
  | .spawnBatch _ => Bool
  | .embedBatch _ => Except EmbeddingError (List Embedding)
  | .embed _ => Except EmbeddingError Embedding
  | .setEmbedding _ _ _ => Except StoreError Unit
  | .releaseEmbeddingClaim _ _ _ => Except StoreError Bool

abbrev BatchProgram (α : Type) : Type :=
  Program BatchRequest BatchRequest.Answer α

/-- Ask a request and wait for the answer. -/
def BatchRequest.await (request : BatchRequest) : BatchProgram request.Answer :=
  perform request

/-! ## The executor -/

/-- `BatchEmbeddingResult`. -/
inductive BatchEmbeddingResult where
  | perItem (results : List (Except EmbeddingError Embedding))
  | batchFailed (error : EmbeddingError)

/-- `execute_individually`. -/
def executeIndividually : List String → BatchProgram (List (Except EmbeddingError Embedding))
  | [] => pure []
  | content :: rest => do
      let result ← (BatchRequest.embed content).await
      let results ← executeIndividually rest
      return result :: results

/-- `BatchEmbeddingExecutor::execute_chunk`. -/
def executeChunk (contents : List String) : BatchProgram BatchEmbeddingResult := do
  match ← (BatchRequest.embedBatch contents).await with
  | .ok embeddings =>
      if embeddings.length = contents.length then
        return .perItem (embeddings.map .ok)
      else
        return .perItem (← executeIndividually contents)
  | .error (.permanent _) => return .perItem (← executeIndividually contents)
  | .error error => return .batchFailed error

/-! ## The tasks -/

/-- `release_work_claim`; a failure is logged. -/
def releaseWorkClaim (work : EmbedWork) : BatchProgram Unit :=
  match work.claimToken with
  | none => pure ()
  | some token => do
      let _ ← (BatchRequest.releaseEmbeddingClaim work.id work.expectedRevision token).await

/-- `apply_embedding_result`. -/
def applyEmbeddingResult (work : EmbedWork) (result : Except EmbeddingError Embedding) :
    BatchProgram Unit :=
  match result with
  | .error _ => releaseWorkClaim work
  | .ok embedding => do
      match ← (BatchRequest.setEmbedding work.id embedding work.expectedRevision).await with
      | .ok () => pure ()
      | .error _ => releaseWorkClaim work

/-- The guard of an item is dropped at the end of its round. -/
def dropInflight (work : EmbedWork) : BatchProgram Unit :=
  (BatchRequest.dropInflightEmbed work.id work.expectedRevision).await

/-- `run_batch`. -/
def runBatch (tracked : List EmbedWork) : BatchProgram Unit :=
  if tracked.isEmpty then
    pure ()
  else do
    match ← executeChunk (tracked.map EmbedWork.content) with
    | .perItem results =>
        (tracked.zip results).forM fun item => do
          applyEmbeddingResult item.1 item.2
          dropInflight item.1
    | .batchFailed _ =>
        tracked.forM fun work => do
          releaseWorkClaim work
          dropInflight work

/-! ## The scheduler -/

/-- `RejectedSpawn`. -/
inductive RejectedSpawn where
  | runInline
  | releaseClaims
deriving DecidableEq, Repr

/-- `prepare_work`. -/
def prepareWork : List EmbedWork → BatchProgram (List EmbedWork)
  | [] => pure []
  | work :: rest => do
      if ← (BatchRequest.beginInflightEmbed work.id work.expectedRevision).await then
        let tracked ← prepareWork rest
        return work :: tracked
      else
        releaseWorkClaim work
        prepareWork rest

/-- `schedule_chunk`. -/
def scheduleChunk (rejectedSpawn : RejectedSpawn) (work : List EmbedWork) : BatchProgram Nat := do
  let tracked ← prepareWork work
  if tracked.isEmpty then
    return 0
  else if ← (BatchRequest.spawnBatch tracked).await then
    return tracked.length
  else
    match rejectedSpawn with
    | .runInline => do
        let tracked ← prepareWork tracked
        runBatch tracked
        return tracked.length
    | .releaseClaims => do
        tracked.forM releaseWorkClaim
        return 0

/-- `schedule_batches`; a chunk holds at least one item. -/
def scheduleBatches (chunkSize : Nat) (rejectedSpawn : RejectedSpawn) (work : List EmbedWork) :
    BatchProgram Nat :=
  (chunks (max chunkSize 1) work).foldlM (fun scheduled chunk => do
    let count ← scheduleChunk rejectedSpawn chunk
    return scheduled + count) 0

/-- The work of a claim. -/
def ReembedClaim.work (claim : ReembedClaim) : EmbedWork :=
  ⟨claim.id, claim.content, claim.embeddingRevision, some claim.claimToken⟩

/-- `spawn_claimed_embed_batches_or_run_inline`. -/
def spawnClaimedEmbedBatches (chunkSize : Nat) (claims : List ReembedClaim) : BatchProgram Nat :=
  scheduleBatches chunkSize .releaseClaims (claims.map ReembedClaim.work)

/-! ## The surroundings -/

/-- The store and the memories in flight: those of this call and those of
others. -/
structure BatchWorld where
  db : Db
  inflight : List (MemoryId × Int)
  elsewhere : List (MemoryId × Int)

/-- The choices of the provider and of the task coordinator. -/
inductive BatchChoice where
  | determined
  | spawn (accepted : Bool)
  | batch (result : Except EmbeddingError (List (List Component)))
  | single (result : Except EmbeddingError (List Component))

/-- What other parts of the server do meanwhile. -/
inductive BatchInterference where
  | store (call : StoreCall)
  | beginInflight (key : MemoryId × Int)
  | dropInflight (key : MemoryId × Int)

/-- How a request is answered by a process. -/
def EngineProcess.answer (process : EngineProcess) (world : BatchWorld) :
    (request : BatchRequest) → BatchChoice → Option (request.Answer × BatchWorld)
  | .beginInflightEmbed id revision, .determined =>
      if (id, revision) ∈ world.inflight ++ world.elsewhere then
        some (false, world)
      else
        some (true, { world with inflight := (id, revision) :: world.inflight })
  | .dropInflightEmbed id revision, .determined =>
      some ((), { world with inflight := world.inflight.filter (· ≠ (id, revision)) })
  | .spawnBatch tracked, .spawn accepted =>
      -- The guards of a task that is not accepted are dropped with it.
      let keys := tracked.map fun work => (work.id, work.expectedRevision)
      some (accepted, if accepted then world
        else { world with inflight := world.inflight.filter (· ∉ keys) })
  | .embedBatch texts, .batch result =>
      some (result.map fun vectors => vectors.mapIdx fun index values =>
        ⟨values, texts.getD index "", process.provider⟩, world)
  | .embed text, .single result =>
      some (result.map fun values => ⟨values, text, process.provider⟩, world)
  | .setEmbedding id embedding revision, .determined =>
      match setEmbedding process.handle.dimensions process.handle.activeProfile id embedding
          revision world.db with
      | .ok (_, db) => some (.ok (), { world with db := db })
      | .error error => some (.error error, world)
  | .releaseEmbeddingClaim id revision token, .determined =>
      match releaseEmbeddingClaim id revision token world.db with
      | .ok (released, db) => some (.ok released, { world with db := db })
      | .error error => some (.error error, world)
  | _, _ => none

/-- The tasks that an answered request starts. -/
def startedBatches : Event BatchRequest BatchRequest.Answer → List (List EmbedWork)
  | ⟨.spawnBatch tracked, accepted⟩ => if accepted = true then [tracked] else []
  | _ => []

/-- What other parts of the server do to the shared state. -/
def BatchWorld.interfere [Host] (world : BatchWorld) : BatchInterference → Option BatchWorld
  | .store call => (storeStep world.db call).map fun db => { world with db := db }
  | .beginInflight key =>
      if key ∈ world.inflight ++ world.elsewhere then none
      else some { world with elsewhere := key :: world.elsewhere }
  | .dropInflight key => some { world with elsewhere := world.elsewhere.filter (· ≠ key) }

/-- The surroundings of the tasks of a process. -/
def EngineProcess.surroundings [Host] (process : EngineProcess) :
    Surroundings BatchRequest BatchRequest.Answer BatchWorld BatchChoice BatchInterference where
  answer := process.answer
  starts event := (startedBatches event).map runBatch
  interfere := BatchWorld.interfere

end LocalHold
