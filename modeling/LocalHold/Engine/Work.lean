import LocalHold.Engine.Embedding
import LocalHold.Store.IndexRuns

/-!
# The work a call leaves behind

The content and the revision that a process queues for embedding belong
together: in the state right after the call, the memory holds that content at
that embedding revision.
-/

namespace LocalHold

open Relational Transition Transition.Txn

/-- A memory holds a content at an embedding revision. -/
def Holds (id : MemoryId) (content : String) (revision : Int) (db : Db) : Prop :=
  ∃ columns, db.indexed id = some columns ∧ columns.content = content ∧
    columns.embeddingRevision = revision

/-- Contents stay where they are, at the revision they were stored under. -/
def Undisturbed (before after : Db) : Prop :=
  ∀ id content revision, Holds id content revision before → Holds id content revision after

instance : IsTrans Db Undisturbed :=
  ⟨fun _ _ _ early late id content revision holds =>
    late id content revision (early id content revision holds)⟩

theorem Holds.of_indexSide {id : MemoryId} {content : String} {revision : Int} {before after : Db}
    (same : after.indexSide = before.indexSide) (holds : Holds id content revision before) :
    Holds id content revision after := by
  obtain ⟨columns, indexed, columnsHold⟩ := holds
  exact ⟨columns, by rw [Db.indexed_eq_of_indexSide same, indexed], columnsHold⟩

theorem withinUndisturbed_of_keepsIndex {α : Type} {body : StoreM α} (inner : KeepsIndex body) :
    Within Undisturbed body :=
  inner.mono fun _ _ same _ _ _ holds => holds.of_indexSide same

/-! ## Updates -/

/-- The revision an update reports is the one its content is stored under. -/
def ReembedsAt (id : MemoryId) (content : String) (outcome : AuthorizedUpdateOutcome) (db : Db) :
    Prop :=
  ∀ revision, outcome.reembedRevision = some revision → Holds id content revision db

section Updates

variable {α : Type} {id : MemoryId} {content : String} {update : MemoryUpdate}

theorem reembedsAt_refused (outcome : WriteOutcome) (db : Db) :
    ReembedsAt id content (.refused outcome) db := by
  intro revision reported
  cases reported

theorem ensures_refused {before : Db → Prop} (outcome : WriteOutcome) :
    Ensures before (pure (.refused outcome) : StoreM AuthorizedUpdateOutcome)
      (ReembedsAt id content) :=
  Ensures.pure fun db _ => reembedsAt_refused outcome db

theorem ensures_reembedsAt {outcome : AuthorizedUpdateOutcome} {body : StoreM α}
    (inner : KeepsIndex body) :
    Ensures (ReembedsAt id content outcome) body fun _ => ReembedsAt id content outcome :=
  Ensures.of_within inner fun _ _ _ reembeds same revision reported =>
    (reembeds revision reported).of_indexSide same

theorem ensures_applyUpdateInner {now : Instant} (newContent : update.content = some content) :
    Ensures (fun _ => True) (applyUpdateInner id update now) (ReembedsAt id content) := by
  intro db result next _ ran revision reported
  rcases applyUpdateInner_ok newContent ran with ⟨_, unreported, _⟩ | ⟨_, stored, kept⟩
  · rw [unreported] at reported
    cases reported
  · obtain ⟨row, found, revisionEq⟩ := stored revision reported
    refine Holds.of_indexSide kept ⟨(update.setClause now row).indexedColumns, ?_, ?_, revisionEq⟩
    · simp only [Db.indexed, Db.dropEmbedding_memories, find?_updateById, found, Option.map_some]
    · simp [MemoryRow.indexedColumns, MemoryUpdate.setClause, newContent]

theorem ensures_updateAuthorized {principal : String} {audit : Option AuditDraft} {now : Instant}
    (newContent : update.content = some content) :
    Ensures (fun _ => True) (updateAuthorized id update principal audit now)
      (ReembedsAt id content) := by
  refine Ensures.after_bind fun existing => ?_
  split
  · exact ensures_refused _
  · split
    · refine Ensures.after_bind fun _ => ?_
      refine Ensures.bind (ensures_applyUpdateInner newContent) fun outcome => ?_
      refine Ensures.keeping_bind (ensures_reembedsAt (Within.onSome fun _ _ => ?_)) fun _ => ?_
      · exact keepsIndex_insertAuditDraft _ _
      · exact Ensures.pure fun _ reembeds => reembeds
    · exact ensures_refused _

variable [Host]

theorem ensures_updateAuthorizedWithMetadata {patch : Option MetadataPatch} {principal : String}
    {audit : Option AuditDraft} {now : Instant} (newContent : update.content = some content) :
    Ensures (fun _ => True) (updateAuthorizedWithMetadata id update patch principal audit now)
      (ReembedsAt id content) := by
  refine Ensures.after_bind fun existing => ?_
  split
  · exact ensures_refused _
  · split
    · refine Ensures.after_bind fun _ => ?_
      refine Ensures.bind (ensures_applyUpdateInner newContent) fun outcome => ?_
      split
      · refine Ensures.keeping_bind
          (ensures_reembedsAt (keepsIndex_applyPatchAfterUpdate _ _ _ _ _ _)) fun _ => ?_
        refine Ensures.keeping_bind (ensures_reembedsAt (Within.onSome fun _ _ => ?_)) fun _ => ?_
        · exact keepsIndex_insertAuditDraft _ _
        · exact Ensures.pure fun _ reembeds => reembeds
      · exact Ensures.pure fun _ reembeds => reembeds
    · exact ensures_refused _

theorem ensures_updateAuthorizedWithMetadataContexts {patch : Option MetadataPatch}
    {contextIds : Option (List ContextId)} {principal : String} {audit : AuditDraft}
    {contextAudit : Option ContextAuditDraft} {now : Instant}
    (newContent : update.content = some content) :
    Ensures (fun _ => True) (updateAuthorizedWithMetadataContexts id update patch contextIds
      principal audit contextAudit now) (ReembedsAt id content) := by
  refine Ensures.after_bind fun _ => Ensures.after_bind fun existing => ?_
  split
  · exact ensures_refused _
  · split
    · refine Ensures.after_bind fun _ => ?_
      refine Ensures.bind (ensures_applyUpdateInner newContent) fun outcome => ?_
      split
      · refine Ensures.keeping_bind
          (ensures_reembedsAt (keepsIndex_applyPatchAfterUpdate _ _ _ _ _ _)) fun _ => ?_
        refine Ensures.keeping_bind (ensures_reembedsAt (Within.onSome fun _ _ =>
          keepsIndex_replaceContextsForUpdate _ _ _ _ _ _ _)) fun _ => ?_
        refine Ensures.keeping_bind
          (ensures_reembedsAt (keepsIndex_insertAuditDraft _ _)) fun _ => ?_
        exact Ensures.pure fun _ reembeds => reembeds
      · exact Ensures.pure fun _ reembeds => reembeds
    · exact ensures_refused _

/-- An optimistic update that stores a vector itself reports no revision. -/
theorem ensures_reviseUnmodified {dimensions : Nat} {activeProfile : Option EmbeddingProfile}
    {patch : Option MetadataPatch} {contextIds : Option (List ContextId)}
    {embedding : Option Embedding} {existing : Memory} {principal : String} {audit : AuditDraft}
    {contextAudit : Option ContextAuditDraft} {revisionAt : Instant}
    (newContent : update.content = some content) :
    Ensures (fun _ => True) (reviseUnmodified dimensions activeProfile id update patch contextIds
      embedding existing principal audit contextAudit revisionAt) (ReembedsAt id content) := by
  cases embedding with
  | some vector =>
      refine Ensures.after_bind fun outcome => Ensures.after_bind fun _ => ?_
      refine Ensures.after_bind fun _ => Ensures.after_bind fun _ => ?_
      refine Ensures.after_bind fun _ => Ensures.after_bind fun _ => ?_
      refine Ensures.pure fun _ _ revision reported => ?_
      cases reported
  | none =>
      refine Ensures.bind (ensures_applyUpdateInner newContent) fun outcome => ?_
      refine Ensures.keeping_bind (ensures_reembedsAt Within.pure) fun _ => ?_
      refine Ensures.keeping_bind (ensures_reembedsAt (Within.onSome fun _ _ =>
        keepsIndex_applyMetadataPatch _ _ _ _ _)) fun _ => ?_
      refine Ensures.keeping_bind (ensures_reembedsAt (Within.onSome fun _ _ =>
        keepsIndex_incrementRecordRevision _ _)) fun _ => ?_
      refine Ensures.keeping_bind (ensures_reembedsAt (Within.onSome fun _ _ =>
        keepsIndex_replaceContextsOptimistically _ _ _ _ _)) fun _ => ?_
      refine Ensures.keeping_bind (ensures_reembedsAt (keepsIndex_insertAuditDraft _ _))
        fun _ => ?_
      exact Ensures.pure fun _ reembeds => reembeds

theorem ensures_updateAuthorizedIfUnmodified {dimensions : Nat}
    {activeProfile : Option EmbeddingProfile} {expectedRevision : Int}
    {patch : Option MetadataPatch} {contextIds : Option (List ContextId)}
    {embedding : Option Embedding} {principal : String} {audit : AuditDraft}
    {contextAudit : Option ContextAuditDraft} {now : Instant}
    (newContent : update.content = some content) :
    Ensures (fun _ => True) (updateAuthorizedIfUnmodified dimensions activeProfile id
      expectedRevision update patch contextIds embedding principal audit contextAudit now)
      (ReembedsAt id content) := by
  refine Ensures.after_bind fun _ => Ensures.after_bind fun _ => ?_
  refine Ensures.after_bind fun _ => Ensures.after_bind fun existing => ?_
  split
  · exact ensures_refused _
  · split
    · refine Ensures.after_bind fun _ => Ensures.after_bind fun _ => ?_
      exact ensures_reviseUnmodified newContent
    · exact ensures_refused _

end Updates

/-! ## Stores -/

/-- A stored memory holds its content at revision zero. -/
def ItemHeld (item : MemoryWithEmbedding) (db : Db) : Prop :=
  Holds item.memory.id item.memory.content 0 db

/-- A transaction that stores one memory and disturbs no other. -/
structure Stores (item : MemoryWithEmbedding) {α : Type} (body : StoreM α) : Prop where
  holds : Ensures (fun _ => True) body fun _ => ItemHeld item
  undisturbed : Within Undisturbed body

/-- A transaction that stores a list of memories. -/
abbrev StoresAll (items : List MemoryWithEmbedding) {α : Type} (body : StoreM α) : Prop :=
  Ensures (fun _ => True) body fun _ db => ∀ item ∈ items, ItemHeld item db

section Stores

variable {α β : Type} {item : MemoryWithEmbedding} {items : List MemoryWithEmbedding}

theorem Stores.bind_keepsIndex {first : StoreM α} {rest : α → StoreM β} (stores : Stores item first)
    (keeps : ∀ value, KeepsIndex (rest value)) : Stores item (first >>= rest) where
  holds := Ensures.bind stores.holds fun value =>
    Ensures.of_within (keeps value) fun _ _ _ held same => held.of_indexSide same
  undisturbed := Within.bind stores.undisturbed fun value =>
    withinUndisturbed_of_keepsIndex (keeps value)

theorem Stores.of_keepsIndex_bind {first : StoreM α} {rest : α → StoreM β}
    (keeps : KeepsIndex first) (stores : ∀ value, Stores item (rest value)) :
    Stores item (first >>= rest) where
  holds := Ensures.after_bind fun value => (stores value).holds
  undisturbed := Within.bind (withinUndisturbed_of_keepsIndex keeps) fun value =>
    (stores value).undisturbed

theorem Stores.storesAll {body : StoreM α} (stores : Stores item body) : StoresAll [item] body :=
  Ensures.mono stores.holds (fun _ holds => holds) fun _ _ held other otherMem => by
    rw [List.mem_singleton.mp otherMem]
    exact held

theorem StoresAll.bind_pure {body : StoreM α} {value : β} (stores : StoresAll items body) :
    StoresAll items (body >>= fun _ => pure value) :=
  Ensures.bind stores fun _ => Ensures.pure fun _ held => held

theorem storesAll_forM {entries : List β} {itemOf : β → MemoryWithEmbedding}
    {body : β → StoreM Unit} (covers : entries.map itemOf = items)
    (stores : ∀ entry ∈ entries, Stores (itemOf entry) (body entry)) :
    StoresAll items (entries.forM body) := by
  have loop : Ensures (fun _ => True) (entries.forM body) fun _ db =>
      ∀ entry ∈ entries, ItemHeld (itemOf entry) db := by
    apply Ensures.forM
    · intro entry entryMem
      exact (stores entry entryMem).holds
    · intro entry entryMem
      exact (stores entry entryMem).undisturbed.mono fun _ _ undisturbed _ => undisturbed _ _ _
  refine Ensures.mono loop (fun _ holds => holds) fun _ db held item itemMem => ?_
  rw [← covers] at itemMem
  obtain ⟨entry, entryMem, rfl⟩ := List.mem_map.mp itemMem
  exact held entry entryMem

/-- A prepared row is inserted where no row was. -/
theorem insertPrepared_indexed {dimensions : Nat} {db next : Db} {value : Unit}
    (ran : insertPrepared dimensions item db = .ok (value, next)) :
    db.indexed item.memory.id = none ∧ ∀ id, next.indexed id =
      if id = item.memory.id then some (preparedMemoryRow item).indexedColumns
      else db.indexed id := by
  obtain ⟨_, _, insertRan, vectorRan⟩ := bind_eq_ok.mp ran
  obtain ⟨memories, inserted, rfl⟩ := insertMemoryRow_ok insertRan
  obtain ⟨_, middle, upsertRan, entitiesRan⟩ := bind_eq_ok.mp vectorRan
  have absent : db.memories.contains item.memory.id = false :=
    (Table.insert?_eq_some_iff.mp inserted).1
  have upsert : Within (Keeps Db.memorySide)
      (onSome item.embedding fun embedding => vectorUpsert dimensions item.memory.id embedding) :=
    Within.onSome fun _ _ => keepsMemorySide_vectorUpsert _ _ _
  have sameSide := upsert upsertRan
  simp only [Keeps, Db.memorySide, Prod.mk.injEq] at sameSide
  refine ⟨Db.indexed_eq_none_iff.mpr absent, fun id => ?_⟩
  rw [Db.indexed_eq_of_indexSide (keepsIndex_insertEntities _ _ entitiesRan)]
  have rowId : (preparedMemoryRow item).id = item.memory.id := rfl
  simp only [Db.indexed, sameSide.1, Table.find?_insert? inserted, rowId]
  by_cases equal : id = item.memory.id
  · rw [if_pos equal, if_pos equal, Option.map_some]
  · rw [if_neg equal, if_neg equal]

theorem stores_insertPrepared (dimensions : Nat) (item : MemoryWithEmbedding) :
    Stores item (insertPrepared dimensions item) where
  holds := by
    intro db value next _ ran
    refine ⟨(preparedMemoryRow item).indexedColumns, ?_, rfl, rfl⟩
    rw [(insertPrepared_indexed ran).2, if_pos rfl]
  undisturbed := by
    intro db value next ran id content revision holds
    obtain ⟨absent, indexed⟩ := insertPrepared_indexed ran
    obtain ⟨columns, found, columnsHold⟩ := holds
    have different : id ≠ item.memory.id := by
      rintro rfl
      rw [absent] at found
      cases found
    exact ⟨columns, by rw [indexed, if_neg different, found], columnsHold⟩

theorem stores_insertPreparedWithSupersession (dimensions : Nat) (item : MemoryWithEmbedding)
    (supersedes : Option MemoryId) (audit : Option AuditDraft) :
    Stores item (insertPreparedWithSupersession dimensions item supersedes audit) := by
  refine Stores.of_keepsIndex_bind (Within.onSome fun _ _ =>
    (readsOnly_validateSupersededExists _).within) fun _ => ?_
  refine (stores_insertPrepared dimensions item).bind_keepsIndex fun _ => ?_
  refine Within.bind (Within.onSome fun _ _ => ?_) fun _ => Within.onSome fun _ _ => ?_
  · exact Within.bind (keepsIndex_markSuperseded _ _) fun _ => Within.pure
  · exact keepsIndex_insertAuditDraft _ _

theorem stores_storeItemWithMetadata (dimensions : Nat) (item : MemoryWithEmbedding)
    (supersedes : Option MemoryId) (metadata : MemoryMetadata) (audit : Option AuditDraft)
    (now : Instant) :
    Stores item (storeItemWithMetadata dimensions item supersedes metadata audit now) :=
  (stores_insertPreparedWithSupersession dimensions item supersedes audit).bind_keepsIndex
    fun _ => keepsIndex_upsertMetadata metadata now

theorem storesAll_storeBatch (dimensions : Nat) (items : List MemoryWithEmbedding)
    (audits : Option (List AuditDraft)) : StoresAll items (storeBatch dimensions items audits) := by
  refine Ensures.after_bind fun _ => ?_
  refine StoresAll.bind_pure (storesAll_forM (List.zipIdx_map_fst 0 items) fun entry _ => ?_)
  refine (stores_insertPrepared dimensions entry.1).bind_keepsIndex fun _ => ?_
  exact Within.onSome fun _ _ => keepsIndex_insertAuditDraft _ _

theorem storesAll_storeBatchWithSupersession (dimensions : Nat)
    (items : List MemoryWithEmbedding) (supersedes : List (Option MemoryId))
    (audits : Option (List AuditDraft)) :
    StoresAll items (storeBatchWithSupersession dimensions items supersedes audits) := by
  refine Ensures.after_bind fun _ => Ensures.after_bind fun _ => ?_
  refine StoresAll.bind_pure (storesAll_forM (List.zipIdx_map_fst 0 items) fun entry _ => ?_)
  exact stores_insertPreparedWithSupersession _ _ _ _

theorem storesAll_storeBatchWithMetadata (dimensions : Nat) (items : List MemoryWithEmbedding)
    (supersedes : List (Option MemoryId)) (metadata : List MemoryMetadata)
    (audits : Option (List AuditDraft)) (now : Instant) :
    StoresAll items
      (storeBatchWithMetadata dimensions items supersedes metadata audits now) := by
  refine Ensures.require_bind fun lengths => ?_
  have sameLength : items.length ≤ metadata.length := by
    rw [beq_iff_eq.mp lengths]
  have covers : ((items.zip metadata).zipIdx).map (fun entry => entry.1.1) = items := by
    have pairs := congrArg (List.map Prod.fst) (List.zipIdx_map_fst 0 (items.zip metadata))
    rw [List.map_map, List.map_fst_zip sameLength] at pairs
    exact pairs
  refine Ensures.after_bind fun _ => Ensures.after_bind fun _ => Ensures.after_bind fun _ => ?_
  refine StoresAll.bind_pure (storesAll_forM covers fun entry _ => ?_)
  exact stores_storeItemWithMetadata _ _ _ _ _ _

variable [Host]

theorem stores_storeGovernedItem (dimensions : Nat) (request : GovernedItem) (principal : String)
    (now : Instant) : Stores request.item (storeGovernedItem dimensions request principal now) :=
  (stores_storeItemWithMetadata _ _ _ _ _ _).bind_keepsIndex fun _ =>
    keepsIndex_insertMemoryContexts _ _ _ _ _ _ _

theorem storesAll_storeBatchWithMetadataContexts (dimensions : Nat)
    (items : List MemoryWithEmbedding) (supersedes : List (Option MemoryId))
    (metadata : List MemoryMetadata) (contextIds : List (List ContextId))
    (audits : List AuditDraft) (contextAudits : List ContextAuditDraft) (now : Instant) :
    StoresAll items (storeBatchWithMetadataContexts dimensions items supersedes metadata contextIds
      audits contextAudits now) := by
  refine Ensures.require_bind fun lengths => ?_
  simp only [Bool.and_eq_true, beq_iff_eq, and_assoc] at lengths
  obtain ⟨supersedesLength, metadataLength, contextsLength, auditsLength, contextAuditsLength⟩ :=
    lengths
  have requestItems := map_item_governedItems supersedesLength metadataLength contextsLength
    auditsLength contextAuditsLength
  intro db value next _ ran
  obtain ⟨principals, middle, validated, rest⟩ := bind_eq_ok.mp ran
  have sameLength := mapM_ok_length validated
  have covers : ((governedItems items supersedes metadata contextIds audits contextAudits).zip
      principals).map (fun entry => entry.1.item) = items := by
    have pairs := congrArg (List.map GovernedItem.item)
      (List.map_fst_zip (le_of_eq sameLength.symm))
    rw [List.map_map, requestItems] at pairs
    exact pairs
  refine StoresAll.bind_pure (storesAll_forM covers fun entry _ => ?_) trivial rest
  exact stores_storeGovernedItem _ _ _ _

/-- Every command stores the memories it is given. -/
theorem storesAll_body (handle : StoreHandle) (now : Instant) (command : StoreCommand) :
    StoresAll command.storedItems (command.body handle now) := by
  cases command
  case store item audit =>
    refine StoresAll.bind_pure (Stores.storesAll ?_)
    exact (stores_insertPrepared _ _).bind_keepsIndex fun _ => Within.bind
      (Within.onSome fun _ _ => keepsIndex_insertAuditDraft _ _) fun _ => Within.pure
  case storeWithSupersession item supersedes audit =>
    exact StoresAll.bind_pure (StoresAll.bind_pure
      (stores_insertPreparedWithSupersession _ _ _ _).storesAll)
  case storeWithMetadata item supersedes metadata audit =>
    refine StoresAll.bind_pure (Ensures.after_bind fun _ => ?_)
    exact StoresAll.bind_pure (stores_storeItemWithMetadata _ _ _ _ _ _).storesAll
  case storeWithMetadataContexts request =>
    refine StoresAll.bind_pure (Ensures.after_bind fun _ => ?_)
    exact StoresAll.bind_pure (stores_storeGovernedItem _ _ _ _).storesAll
  case storeBatch => exact StoresAll.bind_pure (storesAll_storeBatch _ _ _)
  case storeBatchWithSupersession =>
    exact StoresAll.bind_pure (storesAll_storeBatchWithSupersession _ _ _ _)
  case storeBatchWithMetadata =>
    exact StoresAll.bind_pure (storesAll_storeBatchWithMetadata _ _ _ _ _ _)
  case storeBatchWithMetadataContexts =>
    exact StoresAll.bind_pure (storesAll_storeBatchWithMetadataContexts _ _ _ _ _ _ _ _)
  all_goals
    intro _ _ _ _ _ item itemMem
    cases itemMem

end Stores

/-! ## Calls -/

section Calls

variable [Host] {db : Db} {work : EmbedWork}

omit [Host] in
theorem holds_of_reembedWork {id : MemoryId} {changes : MemoryUpdate}
    {body : StoreM AuthorizedUpdateOutcome}
    (ensures : ∀ content, changes.content = some content →
      Ensures (fun _ => True) body (ReembedsAt id content))
    (workMem : work ∈ reembedWork id changes (body db)) :
    Holds work.id work.content work.expectedRevision (db.commit (StoreCommand.discard body)) := by
  unfold reembedWork at workMem
  split at workMem
  case h_1 => cases workMem
  case h_2 outcome next ran =>
    rw [commit_discard ran]
    split at workMem
    case h_1 content revision _ contentEq revisionEq =>
      rw [List.mem_singleton.mp workMem]
      exact ensures content contentEq trivial ran revision revisionEq
    case h_2 => cases workMem

theorem holds_of_claimedWork {principal : Option String} {limit : Nat} {token : String}
    {now : Instant} (workMem : work ∈ claimedWork (claimForReembed principal limit token now db)) :
    Holds work.id work.content work.expectedRevision
      (db.commit (StoreCommand.discard (claimForReembed principal limit token now))) := by
  unfold claimedWork at workMem
  split at workMem
  case h_1 => cases workMem
  case h_2 claims next ran =>
    rw [commit_discard ran]
    have kept := keepsIndex_claimForReembed _ _ _ _ ran
    have claimed := of_reads_bind ran
    obtain ⟨_, _, _, returned⟩ := bind_eq_ok.mp claimed
    cases pure_eq_ok.mp returned
    obtain ⟨claim, claimMem, rfl⟩ := List.mem_map.mp workMem
    obtain ⟨row, rowMem, rfl⟩ := List.mem_map.mp claimMem
    have candidate := List.mem_mergeSort.mp (List.mem_of_mem_take rowMem)
    have found : db.memories.find? row.id = some row :=
      Table.find?_eq_some_iff.mpr ⟨(Table.mem_select_iff.mp candidate).1, rfl⟩
    refine Holds.of_indexSide kept ⟨row.indexedColumns, ?_, rfl, rfl⟩
    simp [Db.indexed, found]

theorem holds_of_storedWork {handle : StoreHandle} {now : Instant} {command : StoreCommand}
    (workMem : work ∈ storedWork command.storedItems (command.body handle now db)) :
    Holds work.id work.content work.expectedRevision (db.commit (command.body handle now)) := by
  unfold storedWork at workMem
  unfold Db.commit
  split at workMem
  case h_1 => cases workMem
  case h_2 result ran =>
    obtain ⟨item, itemMem, rfl⟩ := List.mem_map.mp workMem
    rw [ran]
    exact storesAll_body handle now command trivial ran item itemMem

/-- The work a call leaves behind matches the database right after the call. -/
theorem holds_of_embedWork {call : StoreCall} {next : Db}
    (stepEq : storeStep db call = some next) (workMem : work ∈ call.embedWork db) :
    Holds work.id work.content work.expectedRevision next := by
  unfold storeStep at stepEq
  split at stepEq
  case isFalse => cases stepEq
  case isTrue =>
    cases stepEq
    obtain ⟨handle, now, command⟩ := call
    cases command
    case updateAuthorized =>
      exact holds_of_reembedWork (fun _ newContent => ensures_updateAuthorized newContent) workMem
    case updateAuthorizedWithMetadata =>
      exact holds_of_reembedWork
        (fun _ newContent => ensures_updateAuthorizedWithMetadata newContent) workMem
    case updateAuthorizedWithMetadataContexts =>
      exact holds_of_reembedWork
        (fun _ newContent => ensures_updateAuthorizedWithMetadataContexts newContent) workMem
    case updateIfUnmodified =>
      exact holds_of_reembedWork
        (fun _ newContent => ensures_updateAuthorizedIfUnmodified newContent) workMem
    case claimForReembed => exact holds_of_claimedWork workMem
    all_goals exact holds_of_storedWork workMem

omit [Host] in
/-- A command that carries its own vectors writes them next to the content they
were computed from, under the profile of its provider. -/
theorem StoreCall.vector_of_writes {call : StoreCall} {provider : EmbeddingProfile}
    {id : MemoryId} {view : EmbeddingView} {embedding : Embedding}
    (own : call.command.carriesOwnVectors provider = true) (wrote : call.Writes id view)
    (vectorEq : view.vector = some embedding) :
    embedding.source = view.content ∧ embedding.profile = provider := by
  obtain ⟨handle, now, command⟩ := call
  have ofItems : ∀ items : List MemoryWithEmbedding, WritesItem items id view →
      (items.all fun item => item.embedding.all fun vector =>
        vector.source == item.memory.content && vector.profile == provider) = true →
      embedding.source = view.content ∧ embedding.profile = provider := by
    rintro items ⟨item, itemMem, _, itemVector, itemContent⟩ allOwn
    have itemOwn := List.all_eq_true.mp allOwn item itemMem
    rw [itemVector, vectorEq] at itemOwn
    simpa [itemContent] using itemOwn
  cases command
  case setEmbedding => cases own
  case updateIfUnmodified target _ changes _ _ replacement _ _ _ =>
    obtain ⟨vector, rfl, written, contentEq⟩ := wrote
    rw [written.vector_eq] at vectorEq
    cases vectorEq
    simp only [StoreCommand.carriesOwnVectors, Option.all_some, Bool.and_eq_true, beq_iff_eq]
      at own
    rw [contentEq] at own
    exact ⟨(Option.some.inj own.1).symm, own.2⟩
  all_goals exact ofItems _ wrote own

end Calls

end LocalHold
