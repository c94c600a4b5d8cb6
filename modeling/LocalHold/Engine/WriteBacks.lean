import LocalHold.Engine.EmbedBatches
import LocalHold.Store.EmbeddingLeases
import LocalHold.Store.IndexRuns

/-!
# What write-backs and releases do to the store

An embedding that is written back is the vector of its memory from then on, and the
memory carries no claim.  After a release the claim of the token is gone.  Nothing
else that a batch asks changes the store.
-/

namespace LocalHold

open Relational Transition Transition.Txn

/-! ## Claims and write-backs -/

/-- A memory without an embedding is claimed with a token at a revision. -/
def Db.ClaimedWith (db : Db) (id : MemoryId) (revision : Int) (token : String) : Prop :=
  ∃ row, db.memories.find? id = some row ∧ row.hasEmbedding = 0 ∧
    row.embeddingRevision = revision ∧ row.embeddingClaimToken = some token

/-- An embedding is written back to a memory at a revision, and to no other one. -/
structure WrittenBack (id : MemoryId) (embedding : Embedding) (revision : Int)
    (before after : Db) : Prop where
  flagged : ∃ row, before.memories.find? id = some row ∧ row.embeddingRevision = revision ∧
    after.memories.find? id = some
      { row with hasEmbedding := 1, embeddingClaimedAt := none, embeddingClaimToken := none }
  vector : after.vectorOf id = some embedding
  others : ∀ other, other ≠ id → after.memories.find? other = before.memories.find? other ∧
    after.vectorOf other = before.vectorOf other

/-- What an answered request has done to the store. -/
def StoreEffect : Event BatchRequest BatchRequest.Answer → Db → Db → Prop
  | ⟨.setEmbedding id embedding revision, .ok ()⟩, before, after =>
      WrittenBack id embedding revision before after
  | ⟨.releaseEmbeddingClaim id revision token, .ok released⟩, before, after =>
      (released = true ↔ before.ClaimedWith id revision token) ∧
        ¬after.ClaimedWith id revision token
  | _, before, after => after = before

/-! ## The statements -/

theorem writtenBack_of_setEmbedding {dimensions : Nat} {activeProfile : Option EmbeddingProfile}
    {id : MemoryId} {embedding : Embedding} {expectedRevision : Int} {db next : Db} {value : Unit}
    (mapOk : MapOk db)
    (ran : setEmbedding dimensions activeProfile id embedding expectedRevision db =
      .ok (value, next)) :
    WrittenBack id embedding expectedRevision db next := by
  obtain ⟨_, _, validated⟩ := (readsOnly_validateEmbeddingVector _ _).of_bind ran
  obtain ⟨_, _, ensured⟩ := (readsOnly_ensureActiveProfile _).of_bind validated
  have fetched := of_reads_bind ensured
  obtain ⟨row, found, located⟩ := of_expect_bind fetched
  obtain ⟨current, unchanged⟩ := of_require_bind located
  obtain ⟨_, middle, upsertRan, rest⟩ := bind_eq_ok.mp unchanged
  obtain ⟨affected, _, flagRan, checked⟩ := bind_eq_ok.mp rest
  obtain ⟨_, stateEq⟩ := require_eq_ok.mp checked
  cases stateEq
  obtain ⟨onlyAt, sameMemories, vectorEq, _⟩ := vectorUpsert_settles mapOk upsertRan
  have reading := of_reads_bind flagRan
  obtain ⟨_, _, writeRan, returned⟩ := bind_eq_ok.mp reading
  cases writes_eq_ok.mp writeRan
  obtain ⟨_, rfl⟩ := Prod.mk.inj (pure_eq_ok.mp returned)
  have revision := beq_iff_eq.mp current
  have rowKey := Table.find?_key found
  refine ⟨⟨row, found, revision, ?_⟩, vectorEq, fun other different => ⟨?_, ?_⟩⟩
  · rw [Table.find?_updateWhere, sameMemories, found]
    simp [rowKey, revision]
  · rw [Table.find?_updateWhere, sameMemories]
    cases otherFound : db.memories.find? other with
    | none => rfl
    | some otherRow => simp [Table.find?_key otherFound, different]
  · exact onlyAt.vector mapOk other different

theorem releaseEmbeddingClaim_effect {id : MemoryId} {revision : Int} {token : String}
    {db next : Db} {released : Bool}
    (ran : releaseEmbeddingClaim id revision token db = .ok (released, next)) :
    (released = true ↔ db.ClaimedWith id revision token) ∧ ¬next.ClaimedWith id revision token := by
  rw [releaseEmbeddingClaim_eq] at ran
  obtain ⟨rfl, rfl⟩ := Prod.mk.inj (Except.ok.inj ran)
  cases found : db.memories.find? id with
  | none =>
      refine ⟨iff_of_false nofun ?_, ?_⟩
      · rintro ⟨row, present, _⟩
        rw [found] at present
        cases present
      · rintro ⟨row, present, _⟩
        rw [Table.find?_updateWhere, found] at present
        cases present
  | some row =>
      have rowKey := Table.find?_key found
      constructor
      · simp only [Bool.and_eq_true, beq_iff_eq]
        constructor
        · rintro ⟨⟨unembedded, current⟩, owned⟩
          exact ⟨row, found, unembedded, current, owned⟩
        · rintro ⟨other, present, unembedded, current, owned⟩
          cases found.symm.trans present
          exact ⟨⟨unembedded, current⟩, owned⟩
      · rintro ⟨other, present, unembedded, current, owned⟩
        rw [Table.find?_updateWhere, found, Option.map_some, Option.some.injEq] at present
        subst present
        split at owned
        · cases owned
        · next kept =>
            rw [if_neg kept] at unembedded current
            simp [rowKey, unembedded, current, owned] at kept

/-! ## Along a run -/

section Runs

variable {process : EngineProcess} {world after : BatchWorld}

/-- An answered request keeps the index well formed and has its effect. -/
theorem EngineProcess.effect_of_answer {request : BatchRequest} {answer : request.Answer}
    {choice : BatchChoice} (indexOk : IndexOk world.db)
    (answered : process.answer world request choice = some (answer, after)) :
    IndexOk after.db ∧ StoreEffect ⟨request, answer⟩ world.db after.db := by
  cases request with
  | setEmbedding id embedding revision =>
      cases choice with
      | determined =>
          simp only [EngineProcess.answer] at answered
          split at answered
          · next value db ran =>
              cases answered
              exact ⟨(growing_setEmbedding ran indexOk).1,
                writtenBack_of_setEmbedding indexOk.toMapOk ran⟩
          · cases answered
            exact ⟨indexOk, rfl⟩
      | spawn accepted => cases answered
      | batch result => cases answered
      | single result => cases answered
  | releaseEmbeddingClaim id revision token =>
      cases choice with
      | determined =>
          simp only [EngineProcess.answer] at answered
          split at answered
          · next released db ran =>
              cases answered
              have same : Keeps Db.indexSide world.db db :=
                keepsIndex_releaseEmbeddingClaim id revision token ran
              have growing : Growing (fun _ _ => False) world.db db := Growing.of_indexSide same
              exact ⟨(growing indexOk).1, releaseEmbeddingClaim_effect ran⟩
          · cases answered
            exact ⟨indexOk, rfl⟩
      | spawn accepted => cases answered
      | batch result => cases answered
      | single result => cases answered
  | beginInflightEmbed id revision =>
      cases choice with
      | determined =>
          simp only [EngineProcess.answer] at answered
          split at answered <;> cases answered <;> exact ⟨indexOk, rfl⟩
      | spawn accepted => cases answered
      | batch result => cases answered
      | single result => cases answered
  | dropInflightEmbed id revision =>
      cases choice <;> cases answered
      exact ⟨indexOk, rfl⟩
  | spawnBatch tracked =>
      cases choice with
      | spawn accepted =>
          simp only [EngineProcess.answer] at answered
          split at answered <;> cases answered <;> exact ⟨indexOk, rfl⟩
      | determined => cases answered
      | batch result => cases answered
      | single result => cases answered
  | embedBatch texts =>
      cases choice <;> cases answered
      exact ⟨indexOk, rfl⟩
  | embed text =>
      cases choice <;> cases answered
      exact ⟨indexOk, rfl⟩

variable [Host]

theorem EngineProcess.indexOk_poolStep
    {pool next : Pool BatchRequest BatchRequest.Answer BatchWorld}
    {action : PoolAction BatchChoice BatchInterference} (indexOk : IndexOk pool.shared.db)
    (stepEq : poolStep process.surroundings pool action = some next) :
    IndexOk next.shared.db := by
  rcases Pool.poolStep_cases stepEq with ⟨interference, interfered, _⟩ | ⟨_, _, answered, _⟩
  · cases interference with
    | store call =>
        obtain ⟨db, called, same⟩ := Option.map_eq_some_iff.mp interfered
        rw [← same]
        exact (storeStep_sustains called indexOk).1
    | beginInflight key =>
        simp only [EngineProcess.surroundings, BatchWorld.interfere] at interfered
        split at interfered
        · cases interfered
        · rw [← Option.some.inj interfered]
          exact indexOk
    | dropInflight key =>
        rw [← Option.some.inj interfered]
        exact indexOk
  · exact (process.effect_of_answer indexOk answered).1

/-- Every event of a run has its effect on the store in the step that logs it. -/
theorem EngineProcess.storeEffect_of_run {main : BatchProgram Unit}
    {actions : List (PoolAction BatchChoice BatchInterference)}
    {pool : Pool BatchRequest BatchRequest.Answer BatchWorld} (indexOk : IndexOk world.db)
    (runEq : run (poolStep process.surroundings) (Pool.start world main) actions = some pool)
    {position : Nat} {event : Event BatchRequest BatchRequest.Answer}
    (found : pool.log[position]? = some event) :
    ∃ before after, Pool.LoggedBy process.surroundings (Pool.start world main) actions position
      event before after ∧ StoreEffect event before.shared.db after.shared.db := by
  obtain ⟨before, after, logged⟩ := Pool.exists_loggedBy runEq found
  refine ⟨before, after, logged, ?_⟩
  obtain ⟨earlier, later, _, earlierRun⟩ := logged.reached
  have preserved : ∀ (pool : Pool BatchRequest BatchRequest.Answer BatchWorld) action next,
      IndexOk pool.shared.db → poolStep process.surroundings pool action = some next →
      IndexOk next.shared.db := fun _ _ _ holds stepEq => process.indexOk_poolStep holds stepEq
  have startOk : IndexOk (Pool.start world main).shared.db := indexOk
  have beforeOk : IndexOk before.shared.db := run_invariant preserved startOk earlierRun
  obtain ⟨choice, answered⟩ := logged.answered
  exact (process.effect_of_answer beforeOk answered).2

end Runs

end LocalHold
