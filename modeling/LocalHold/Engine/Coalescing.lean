import Mathlib.Data.Finset.Insert
import Mathlib.Data.Finset.Erase
import LocalHold.Engine.EmbedBatches

/-!
# Coalesced embeds

A process embeds a memory revision at most once at a time: the key of the embed
goes into a shared set before the task is spawned, and a guard takes it out again
when the embed ends, however it ends.  Claimed embeds are listed in a second set
in the same way.  Every insertion and every removal is one step here, so that
calls, tasks and the drops of their guards interleave freely.
-/

namespace LocalHold

open Paging

/-! ## The shared sets -/

/-- `EmbedKey`. -/
abbrev EmbedKey : Type :=
  MemoryId × Int

/-- `ActiveEmbedClaim`. -/
structure ActiveEmbedClaim where
  id : MemoryId
  embeddingRevision : Int
  claimToken : String
deriving DecidableEq

/-- The claim that `prepare_work` tracks for work with a token. -/
def EmbedWork.activeClaim (work : EmbedWork) : Option ActiveEmbedClaim :=
  work.claimToken.map fun token => ⟨work.id, work.expectedRevision, token⟩

/-- The shared sets of an orchestrator, and whether its task coordinator has
closed admitted spawns. -/
structure EmbedSets where
  inflightEmbeds : Finset EmbedKey
  activeClaimedEmbeds : Finset ActiveEmbedClaim
  admittedSpawnsClosed : Bool

namespace EmbedSets

/-- `begin_inflight_embed`. -/
def beginInflightEmbed (sets : EmbedSets) (key : EmbedKey) : Option EmbedSets :=
  if key ∈ sets.inflightEmbeds then none
  else some { sets with inflightEmbeds := insert key sets.inflightEmbeds }

/-- `InFlightEmbed::drop`. -/
def dropInflightEmbed (sets : EmbedSets) (key : EmbedKey) : EmbedSets :=
  { sets with inflightEmbeds := sets.inflightEmbeds.erase key }

/-- `track_active_claim`, for work that has a claim. -/
def trackActiveClaim (sets : EmbedSets) : Option ActiveEmbedClaim → EmbedSets
  | none => sets
  | some claim =>
      { sets with activeClaimedEmbeds := insert claim sets.activeClaimedEmbeds }

/-- `ActiveEmbedClaimGuard::drop`, for work that has a guard. -/
def dropActiveClaim (sets : EmbedSets) : Option ActiveEmbedClaim → EmbedSets
  | none => sets
  | some claim => { sets with activeClaimedEmbeds := sets.activeClaimedEmbeds.erase claim }

end EmbedSets

/-! ## Embeds and their guards -/

/-- `TrackedEmbedWork`, or a single embed with the guard of its key. -/
structure TrackedEmbedWork where
  work : EmbedWork
  activeClaim : Option ActiveEmbedClaim
deriving DecidableEq

/-- Where an embed that has not ended is. -/
inductive EmbedStage where
  /-- Its key is taken and its task not spawned yet. -/
  | preparing
  /-- In a task that has not been polled. -/
  | queued
  /-- In a task. -/
  | running
  /-- In the call that asked for it. -/
  | inline
  /-- About to drop its guards. -/
  | ending
  /-- Its key is dropped and its claim is not. -/
  | closing
deriving DecidableEq, Repr

/-- An embed that has not ended. -/
structure LiveEmbed where
  stage : EmbedStage
  tracked : TrackedEmbedWork
deriving DecidableEq

namespace LiveEmbed

/-- The embed has the key, and the guard of the key has not been dropped. -/
def holds (key : EmbedKey) (embed : LiveEmbed) : Bool :=
  embed.stage ≠ .closing && embed.tracked.work.key = key

/-- The embed of the key is carried out, by a task or inline. -/
def embeds (key : EmbedKey) (embed : LiveEmbed) : Bool :=
  (embed.stage = .running || embed.stage = .inline) && embed.tracked.work.key = key

end LiveEmbed

/-- What is left of tracked work that is dropped: the item whose first guard is
dropped already, and the items behind it. -/
structure Dropping where
  current : Option TrackedEmbedWork
  behind : List TrackedEmbedWork
deriving DecidableEq

namespace Dropping

/-- The guards of an item are dropped in the order of its fields. -/
def step (sets : EmbedSets) : Dropping → Option (EmbedSets × Dropping)
  | ⟨some item, behind⟩ => some (sets.dropActiveClaim item.activeClaim, ⟨none, behind⟩)
  | ⟨none, item :: behind⟩ => some (sets.dropInflightEmbed item.work.key, ⟨some item, behind⟩)
  | ⟨none, []⟩ => none

end Dropping

/-! ## Calls and tasks -/

/-- Where a call or a task is. -/
inductive EmbedPhase where
  /-- Before the next chunk, or done. -/
  | idle
  /-- `prepare_work` before its next item, a second time if the task was refused. -/
  | preparing (again : Bool) (todo : List EmbedWork) (tracked : List TrackedEmbedWork)
  /-- `prepare_work` before it tracks the claim of an item. -/
  | tracking (again : Bool) (work : EmbedWork) (todo : List EmbedWork)
      (tracked : List TrackedEmbedWork)
  /-- About to spawn a task. -/
  | spawning (tracked : List TrackedEmbedWork)
  /-- The task was refused and is dropped. -/
  | refused (dropping : Dropping) (accepted : List EmbedWork)
  /-- A task that has not been polled. -/
  | queued (tracked : List TrackedEmbedWork)
  /-- `run_batch` or `run_embed_task`. -/
  | running (inline : Bool) (tracked : List TrackedEmbedWork)
  /-- An item is done and its first guard is dropped. -/
  | settling (inline : Bool) (done : TrackedEmbedWork) (tracked : List TrackedEmbedWork)
  /-- Aborted, cancelled, panicked or left over: everything is dropped. -/
  | stopping (dropping : Dropping)
deriving DecidableEq

namespace EmbedPhase

/-- Where the embeds of a call are. -/
def stage : EmbedPhase → EmbedStage
  | idle | preparing .. | tracking .. | spawning _ => .preparing
  | queued _ => .queued
  | running inline _ | settling inline _ _ => if inline then .inline else .running
  | refused .. | stopping _ => .ending

/-- The embeds with a key that is not dropped. -/
def held : EmbedPhase → List TrackedEmbedWork
  | idle => []
  | preparing _ _ tracked | spawning tracked | queued tracked | running _ tracked
  | settling _ _ tracked => tracked
  | tracking _ work _ tracked => ⟨work, none⟩ :: tracked
  | refused dropping _ | stopping dropping => dropping.behind

/-- The embed whose key is dropped and whose claim is not. -/
def closing : EmbedPhase → Option TrackedEmbedWork
  | settling _ done _ => some done
  | refused dropping _ | stopping dropping => dropping.current
  | _ => none

/-- The embeds of a call that have not ended. -/
def live (phase : EmbedPhase) : List LiveEmbed :=
  phase.closing.toList.map (LiveEmbed.mk .closing) ++ phase.held.map (LiveEmbed.mk phase.stage)

end EmbedPhase

/-- A call or a task: where it is, the chunks that follow, and what becomes of a
chunk that is refused. -/
structure EmbedCall where
  phase : EmbedPhase
  later : List (List EmbedWork)
  rejectedSpawn : RejectedSpawn
deriving DecidableEq

namespace EmbedCall

/-- `spawn_embed_task_shared_or_run_inline`: one item without a claim. -/
def spawnEmbedTask (id : MemoryId) (content : String) (expectedRevision : Int) : EmbedCall :=
  ⟨.idle, [[⟨id, content, expectedRevision, none⟩]], .runInline⟩

/-- `spawn_embed_batches_or_run_inline`. -/
def spawnEmbedBatches (chunkSize : Nat) (work : List EmbedWork) : EmbedCall :=
  ⟨.idle, chunks (max chunkSize 1) work, .runInline⟩

/-- `spawn_claimed_embed_batches_or_run_inline`. -/
def spawnClaimedEmbedBatches (chunkSize : Nat) (claims : List ReembedClaim) : EmbedCall :=
  ⟨.idle, chunks (max chunkSize 1) (claims.map ReembedClaim.work), .releaseClaims⟩

/-- The next step of a call or a task, and the task that it spawns. -/
def step (sets : EmbedSets) (call : EmbedCall) :
    Option (EmbedSets × EmbedCall × Option EmbedCall) :=
  match call.phase with
  | .idle =>
      match call.later with
      | [] => none
      | chunk :: later =>
          some (sets, { call with phase := .preparing false chunk [], later := later }, none)
  | .preparing again (work :: todo) tracked =>
      match sets.beginInflightEmbed work.key with
      -- A duplicate is skipped; its claim is released in the store.
      | none => some (sets, { call with phase := .preparing again todo tracked }, none)
      | some taken => some (taken, { call with phase := .tracking again work todo tracked }, none)
  | .tracking again work todo tracked =>
      some (sets.trackActiveClaim work.activeClaim,
        { call with phase := .preparing again todo (tracked ++ [⟨work, work.activeClaim⟩]) }, none)
  | .preparing again [] tracked =>
      if tracked.isEmpty then some (sets, { call with phase := .idle }, none)
      else if again then some (sets, { call with phase := .running true tracked }, none)
      else some (sets, { call with phase := .spawning tracked }, none)
  | .spawning tracked =>
      if sets.admittedSpawnsClosed then
        some (sets, { call with
          phase := .refused ⟨none, tracked⟩ (tracked.map TrackedEmbedWork.work) }, none)
      else
        some (sets, { call with phase := .idle }, some ⟨.queued tracked, [], call.rejectedSpawn⟩)
  | .refused dropping accepted =>
      match dropping.step sets with
      | some (dropped, rest) =>
          some (dropped, { call with phase := .refused rest accepted }, none)
      | none =>
          match call.rejectedSpawn with
          | .runInline => some (sets, { call with phase := .preparing true accepted [] }, none)
          -- The claims are released in the store.
          | .releaseClaims => some (sets, { call with phase := .idle }, none)
  | .queued tracked => some (sets, { call with phase := .running false tracked }, none)
  | .running _ [] => some (sets, { call with phase := .idle }, none)
  -- The result of the first item is applied, or its claim released.
  | .running inline (item :: tracked) =>
      some (sets.dropInflightEmbed item.work.key,
        { call with phase := .settling inline item tracked }, none)
  | .settling inline done tracked =>
      some (sets.dropActiveClaim done.activeClaim,
        { call with phase := .running inline tracked }, none)
  | .stopping dropping =>
      match dropping.step sets with
      | some (dropped, rest) => some (dropped, { call with phase := .stopping rest }, none)
      | none => some (sets, { call with phase := .idle }, none)

/-- A call is cancelled, a task aborted, or either panics. -/
def stop (call : EmbedCall) : EmbedCall :=
  { call with phase := .stopping ⟨call.phase.closing, call.phase.held⟩, later := [] }

end EmbedCall

/-! ## The process -/

/-- The sets of an orchestrator and the calls and tasks that share them. -/
structure EmbedWorld where
  sets : EmbedSets
  calls : List EmbedCall

/-- One step of the process. -/
inductive EmbedEvent where
  /-- A call starts. -/
  | request (call : EmbedCall)
  /-- A call or a task takes its next step. -/
  | advance (index : Nat)
  /-- A call or a task is stopped where it is. -/
  | stop (index : Nat)
  /-- A shutdown closes admitted spawns or opens them again. -/
  | admittedSpawns (closed : Bool)

namespace EmbedWorld

/-- No key, no claim and no call. -/
def initial : EmbedWorld :=
  ⟨⟨∅, ∅, false⟩, []⟩

/-- One step of the process. -/
def step (world : EmbedWorld) : EmbedEvent → Option EmbedWorld
  | .request call =>
      if call.phase = .idle then some { world with calls := world.calls ++ [call] } else none
  | .advance index =>
      world.calls[index]?.bind fun call =>
        (call.step world.sets).map fun moved =>
          ⟨moved.1, world.calls.set index moved.2.1 ++ moved.2.2.toList⟩
  | .stop index =>
      world.calls[index]?.map fun call => { world with calls := world.calls.set index call.stop }
  | .admittedSpawns closed =>
      some { world with sets := { world.sets with admittedSpawnsClosed := closed } }

/-- The embeds of the process that have not ended. -/
def live (world : EmbedWorld) : List LiveEmbed :=
  world.calls.flatMap fun call => call.phase.live

end EmbedWorld

end LocalHold
