import LocalHold.Engine.Freshness

/-!
# One vector space

A process verifies the embedding profile when it opens the database and writes
vectors under that profile.  Another process may switch the recorded profile at
any time.  Every writer of vectors compares the two in the transaction that
writes, so the stored vectors always belong to the recorded profile.

The engine stores memories without vectors and embeds them in the background.
-/

namespace LocalHold

open Relational Transition Transition.Txn

/-- A process whose store verified the profile of its provider. -/
def EngineProcess.Verified (process : EngineProcess) : Prop :=
  process.handle.activeProfile = some process.provider

/-- An action of the engine in a verified process. -/
def WorldAction.Verified : WorldAction → Prop
  | .call process _ command =>
      process.Verified ∧ ∀ item ∈ command.storedItems, item.embedding = none
  | .readContent process _ _ => process.Verified
  | _ => True

/-- Work of a verified process; its vectors belong to its provider. -/
def EmbedTask.Verified : EmbedTask → Prop
  | .contentRead process _ _ => process.Verified
  | .queued process _ => process.Verified
  | .computed process _ embedding => process.Verified ∧ embedding.profile = process.provider

/-- Every flagged memory has a vector of the recorded profile. -/
def OneVectorSpace (db : Db) : Prop :=
  ∀ row ∈ db.memories, row.hasEmbedding = 1 →
    ∃ embedding, db.vectorOf row.id = some embedding ∧
      db.embeddingProfile = some embedding.profile

/-- The index is well formed, its vectors belong to the recorded profile, and
work in flight belongs to verified processes. -/
structure UniformWorld (world : World) : Prop where
  indexOk : IndexOk world.db
  vectors : VectorsMeet (fun view embedding => view.profile = some embedding.profile) world.db
  tasks : ∀ task ∈ world.tasks, task.Verified

/-! ## Refused vectors -/

section Refusals

variable {dimensions : Nat} {profile : EmbeddingProfile} {id : MemoryId} {embedding : Embedding}
  {db : Db}

/-- A write-back under another profile than the recorded one aborts. -/
theorem setEmbedding_refused (expectedRevision : Int)
    (switched : db.embeddingProfile ≠ some profile) :
    ∃ error, setEmbedding dimensions (some profile) id embedding expectedRevision db =
      .error error := by
  cases ran : setEmbedding dimensions (some profile) id embedding expectedRevision db with
  | error error => exact ⟨error, rfl⟩
  | ok result =>
      obtain ⟨_, _, validated⟩ := (readsOnly_validateEmbeddingVector _ _).of_bind ran
      obtain ⟨_, ensuredRan, _⟩ := (readsOnly_ensureActiveProfile _).of_bind validated
      exact absurd (profile_of_ensured ensuredRan profile rfl) switched

theorem keepsProfile_applyUpdateInner {update : MemoryUpdate} {now : Instant} {content : String}
    (newContent : update.content = some content) :
    Within (Keeps Db.embeddingProfile) (applyUpdateInner id update now) := by
  intro state result next ran
  rcases applyUpdateInner_ok newContent ran with ⟨_, _, rfl⟩ | ⟨_, _, kept⟩
  · rfl
  · simp only [Keeps, Db.indexSide, Prod.mk.injEq] at kept
    rw [Keeps, kept.2.2.2, Db.dropEmbedding_embeddingProfile]

variable [Host]

theorem reviseUnmodified_refused {update : MemoryUpdate} {patch : Option MetadataPatch}
    {contextIds : Option (List ContextId)} {existing : Memory} {principal : String}
    {audit : AuditDraft} {contextAudit : Option ContextAuditDraft} {revisionAt : Instant}
    {result : AuthorizedUpdateOutcome × Db} (newContent : update.content.isSome = true)
    (switched : db.embeddingProfile ≠ some profile) :
    reviseUnmodified dimensions (some profile) id update patch contextIds (some embedding) existing
      principal audit contextAudit revisionAt db ≠ .ok result := by
  intro ran
  obtain ⟨content, contentEq⟩ := Option.isSome_iff_exists.mp newContent
  obtain ⟨_, updated, updateRan, rest⟩ := bind_eq_ok.mp ran
  obtain ⟨_, _, embedRan, _⟩ := bind_eq_ok.mp rest
  obtain ⟨_, ensuredRan, _⟩ := (readsOnly_ensureActiveProfile _).of_bind embedRan
  have recorded := profile_of_ensured ensuredRan profile rfl
  rw [keepsProfile_applyUpdateInner contentEq updateRan] at recorded
  exact switched recorded

/-- An optimistic update with a vector of another profile is not applied. -/
theorem updateAuthorizedIfUnmodified_refused {expectedRevision : Int} {update : MemoryUpdate}
    {patch : Option MetadataPatch} {contextIds : Option (List ContextId)} {principal : String}
    {audit : AuditDraft} {contextAudit : Option ContextAuditDraft} {now : Instant}
    {outcome : AuthorizedUpdateOutcome} {next : Db}
    (switched : db.embeddingProfile ≠ some profile)
    (ran : updateAuthorizedIfUnmodified dimensions (some profile) id expectedRevision update patch
      contextIds (some embedding) principal audit contextAudit now db = .ok (outcome, next)) :
    outcome.outcome ≠ .applied ∧ next = db := by
  obtain ⟨replaces, checked⟩ := of_require_bind ran
  obtain ⟨_, _, validated⟩ := ReadsOnly.of_bind
    (Within.onSome fun _ _ => readsOnly_validateEmbeddingVector _ _) checked
  obtain ⟨_, audited⟩ := of_require_bind validated
  obtain ⟨found, _, fetched⟩ := (readsOnly_fetchMemoryById id).of_bind audited
  cases found with
  | none =>
      cases pure_eq_ok.mp fetched
      exact ⟨by simp [AuthorizedUpdateOutcome.refused], rfl⟩
  | some existing =>
      simp only at fetched
      split at fetched
      · obtain ⟨_, unmodified⟩ := of_require_bind fetched
        obtain ⟨_, _, revised⟩ := ReadsOnly.of_bind
          (Within.onSome fun _ _ => readsOnly_validateCompatibilityCacheUpdate _ _ _) unmodified
        exact absurd revised (reviseUnmodified_refused (by simpa using replaces) switched)
      · cases pure_eq_ok.mp fetched
        exact ⟨by simp [AuthorizedUpdateOutcome.refused], rfl⟩

end Refusals

/-! ## Steps and runs -/

section Worlds

variable [Host] {world next : World}

omit [Host] in
theorem UniformWorld.eraseTask (uniform : UniformWorld world) (position : Nat) :
    UniformWorld { world with tasks := world.tasks.eraseIdx position } where
  indexOk := uniform.indexOk
  vectors := uniform.vectors
  tasks task taskMem := uniform.tasks task (List.mem_of_mem_eraseIdx taskMem)

omit [Host] in
theorem UniformWorld.setTask {task : EmbedTask} (uniform : UniformWorld world) (position : Nat)
    (verified : task.Verified) :
    UniformWorld { world with tasks := world.tasks.set position task } where
  indexOk := uniform.indexOk
  vectors := uniform.vectors
  tasks other otherMem := by
    rcases List.mem_or_eq_of_mem_set otherMem with old | rfl
    · exact uniform.tasks other old
    · exact verified

omit [Host] in
/-- A call of the engine writes vectors under the profile it verified. -/
theorem StoreCall.profile_of_writes {process : EngineProcess} {now : Instant}
    {command : StoreCommand} {id : MemoryId} {view : EmbeddingView} {embedding : Embedding}
    (verified : process.Verified) (unembedded : ∀ item ∈ command.storedItems, item.embedding = none)
    (own : command.carriesOwnVectors process.provider = true)
    (wrote : StoreCall.Writes ⟨process.handle, now, command⟩ id view)
    (vectorEq : view.vector = some embedding) : view.profile = some embedding.profile := by
  have provided := (StoreCall.vector_of_writes own wrote vectorEq).2
  have ofItems : ∀ items : List MemoryWithEmbedding, WritesItem items id view →
      (∀ item ∈ items, item.embedding = none) → view.profile = some embedding.profile := by
    rintro items ⟨item, itemMem, _, itemVector, _⟩ none
    rw [← itemVector, none item itemMem] at vectorEq
    cases vectorEq
  cases command
  case setEmbedding => cases own
  case updateIfUnmodified =>
    obtain ⟨_, _, written, _⟩ := wrote
    rw [provided]
    exact written.profile_eq process.provider verified
  all_goals exact ofItems _ wrote unembedded

theorem UniformWorld.call {process : EngineProcess} {now : Instant} {command : StoreCommand}
    (uniform : UniformWorld world) (verified : (WorldAction.call process now command).Verified)
    (stepEq : worldStep world (.call process now command) = some next) : UniformWorld next := by
  simp only [worldStep] at stepEq
  split at stepEq
  case isFalse => cases stepEq
  case isTrue own =>
    obtain ⟨after, storeEq, rfl⟩ := Option.map_eq_some_iff.mp stepEq
    refine ⟨(storeStep_sustains storeEq uniform.indexOk).1, ?_, ?_⟩
    · refine uniform.vectors.storeStep uniform.indexOk storeEq ?_
      intro id view embedding _ wrote vectorEq
      exact StoreCall.profile_of_writes verified.1 verified.2 own wrote vectorEq
    · intro task taskMem
      rcases List.mem_append.mp taskMem with old | spawned
      · exact uniform.tasks task old
      · obtain ⟨work, _, rfl⟩ := List.mem_map.mp spawned
        exact verified.1

theorem UniformWorld.writeBack {position : Nat} {now : Instant} (uniform : UniformWorld world)
    (stepEq : worldStep world (.writeBack position now) = some next) : UniformWorld next := by
  simp only [worldStep] at stepEq
  split at stepEq
  case h_2 => cases stepEq
  case h_1 process work embedding present =>
    obtain ⟨after, storeEq, rfl⟩ := Option.map_eq_some_iff.mp stepEq
    obtain ⟨verified, provided⟩ := uniform.tasks _ (List.mem_of_getElem? present)
    refine ⟨(storeStep_sustains storeEq uniform.indexOk).1, ?_, ?_⟩
    · refine uniform.vectors.storeStep uniform.indexOk storeEq ?_
      rintro id view vector _ ⟨written, _⟩ vectorEq
      rw [written.vector_eq] at vectorEq
      cases vectorEq
      rw [provided]
      exact written.profile_eq process.provider verified
    · intro task taskMem
      exact uniform.tasks task (List.mem_of_mem_eraseIdx taskMem)

/-- A step of a verified process keeps one vector space. -/
theorem UniformWorld.step {action : WorldAction} (uniform : UniformWorld world)
    (verified : action.Verified) (stepEq : worldStep world action = some next) :
    UniformWorld next := by
  cases action with
  | call process now command => exact uniform.call verified stepEq
  | readContent process id principal =>
      simp only [worldStep] at stepEq
      split at stepEq
      case h_1 content _ _ =>
        cases stepEq
        refine ⟨uniform.indexOk, uniform.vectors, fun task taskMem => ?_⟩
        rcases List.mem_append.mp taskMem with old | new
        · exact uniform.tasks task old
        · rw [List.mem_singleton.mp new]
          exact verified
      case h_2 => cases stepEq
  | readRevision position =>
      simp only [worldStep] at stepEq
      split at stepEq
      case h_2 => cases stepEq
      case h_1 process id content present =>
        have taskVerified := uniform.tasks _ (List.mem_of_getElem? present)
        split at stepEq
        case h_1 =>
          cases stepEq
          exact uniform.setTask position taskVerified
        case h_2 =>
          cases stepEq
          exact uniform.eraseTask position
  | complete position values =>
      simp only [worldStep] at stepEq
      split at stepEq
      case h_1 process work present =>
        cases stepEq
        exact uniform.setTask position ⟨uniform.tasks _ (List.mem_of_getElem? present), rfl⟩
      case h_2 => cases stepEq
  | writeBack position now => exact uniform.writeBack stepEq
  | abandon position =>
      cases stepEq
      exact uniform.eraseTask position

/-- In every run of verified processes, every flagged memory has a vector of the
recorded profile; a write-back of a vector of another profile aborts, and an
optimistic update with one is not applied and changes nothing. -/
theorem one_vector_space {start final : World} {actions : List WorldAction}
    (indexOk : IndexOk start.db) (oneSpace : OneVectorSpace start.db) (idle : start.tasks = [])
    (verified : ∀ action ∈ actions, action.Verified)
    (runEq : run worldStep start actions = some final) :
    OneVectorSpace final.db ∧
    (∀ (process : EngineProcess) (work : EmbedWork) (embedding : Embedding),
      .computed process work embedding ∈ final.tasks →
      final.db.embeddingProfile ≠ some embedding.profile → ∀ now,
      (∃ error, (writeBackCall process work embedding now).command.body process.handle now final.db =
        .error error) ∧
      storeStep final.db (writeBackCall process work embedding now) = some final.db) ∧
    ∀ (process : EngineProcess) (now : Instant) (id : MemoryId) (expectedRevision : Int)
      (update : MemoryUpdate) (patch : Option MetadataPatch)
      (contextIds : Option (List ContextId)) (embedding : Embedding) (principal : String)
      (audit : AuditDraft) (contextAudit : Option ContextAuditDraft), process.Verified →
      embedding.profile = process.provider →
      final.db.embeddingProfile ≠ some embedding.profile →
      (∀ outcome next, updateAuthorizedIfUnmodified process.handle.dimensions
        process.handle.activeProfile id expectedRevision update patch contextIds (some embedding)
        principal audit contextAudit now final.db = .ok (outcome, next) →
        outcome.outcome ≠ .applied) ∧
      storeStep final.db ⟨process.handle, now, .updateIfUnmodified id expectedRevision update patch
        contextIds (some embedding) principal audit contextAudit⟩ = some final.db := by
  have startUniform : UniformWorld start :=
    ⟨indexOk, indexOk.vectorsMeet_iff.mpr oneSpace, by simp [idle]⟩
  have finalUniform : UniformWorld final :=
    run_invariant_of_guarded (fun _ _ _ holds allowed stepEq => holds.step allowed stepEq)
      (Guarded.of_forall verified start) startUniform runEq
  refine ⟨finalUniform.indexOk.vectorsMeet_iff.mp finalUniform.vectors, ?_, ?_⟩
  · intro process work embedding taskMem switched now
    obtain ⟨processVerified, provided⟩ := finalUniform.tasks _ taskMem
    rw [provided] at switched
    have aborts : ∃ error, (writeBackCall process work embedding now).command.body process.handle
        now final.db = .error error := by
      simp only [writeBackCall, StoreCommand.body,
        show process.handle.activeProfile = some process.provider from processVerified]
      exact setEmbedding_refused work.expectedRevision switched
    exact ⟨aborts, storeStep_of_error rfl aborts⟩
  · intro process now id expectedRevision update patch contextIds embedding principal audit
      contextAudit processVerified provided switched
    rw [provided] at switched
    have refused := fun outcome next ran => @updateAuthorizedIfUnmodified_refused
      process.handle.dimensions process.provider id embedding final.db _ expectedRevision update
      patch contextIds principal audit contextAudit now outcome next switched ran
    rw [← show process.handle.activeProfile = some process.provider from processVerified] at refused
    exact ⟨fun outcome next ran => (refused outcome next ran).1,
      storeStep_of_unchanged rfl rfl fun outcome next ran => (refused outcome next ran).2⟩

end Worlds

/-! ## A switch while a vector is in flight -/

/-- A process with another provider. -/
def otherProcess : EngineProcess :=
  let profile : EmbeddingProfile := ⟨"provider", "endpoint", "other model", 1⟩
  ⟨⟨1, some profile⟩, profile⟩

/-- A memory is stored and its vector computed; then the database is reindexed
for another provider. -/
def switchInFlight : List WorldAction :=
  [.call plainProcess 0 (.verifyEmbeddingProfile plainProcess.provider),
    .call plainProcess 0 (.store ⟨Memory.plain ⟨1⟩ "agent" "text" 0, none⟩ none),
    .complete 0 [.finite 1],
    .call otherProcess 1 (.reindexEmbeddings otherProcess.provider)]

theorem switchInFlight_verified : ∀ action ∈ switchInFlight, action.Verified := by
  intro action actionMem
  simp only [switchInFlight, List.mem_cons, List.not_mem_nil, or_false] at actionMem
  rcases actionMem with rfl | rfl | rfl | rfl
  · exact ⟨rfl, by simp [StoreCommand.storedItems]⟩
  · exact ⟨rfl, by simp [StoreCommand.storedItems]⟩
  · trivial
  · exact ⟨rfl, by simp [StoreCommand.storedItems]⟩

theorem one_vector_space_after_switch :
    ∃ final, @run _ _ (@worldStep asciiHost) emptyWorld switchInFlight = some final ∧
      final.db.embeddingProfile = some otherProcess.provider ∧ OneVectorSpace final.db ∧
      ∀ now, @storeStep asciiHost final.db (writeBackCall plainProcess ⟨⟨1⟩, "text", 0, none⟩
        ⟨[.finite 1], "text", plainProcess.provider⟩ now) = some final.db := by
  refine ⟨_, rfl, rfl, ?_⟩
  obtain ⟨oneSpace, writeBacks, _⟩ := @one_vector_space asciiHost emptyWorld _ switchInFlight
    (indexOk_empty 1) (by intro row rowMem; cases rowMem) rfl switchInFlight_verified rfl
  exact ⟨oneSpace, fun now => (writeBacks plainProcess ⟨⟨1⟩, "text", 0, none⟩
    ⟨[.finite 1], "text", plainProcess.provider⟩ (by decide) (by decide) now).2⟩

end LocalHold
