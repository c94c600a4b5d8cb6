import Mathlib.Data.Set.Subsingleton
import LocalHold.Transition.Run
import LocalHold.Store.RevisedCommands

/-!
# Optimistic writers

Every command of the store is sound for record revisions.  A write that names
the revision it expects is therefore applied only when no covered field changed
since any moment at which the memory had that revision.
-/

namespace LocalHold

open Relational Transition Transition.Txn

variable [Host]

/-! ## Commands and runs -/

/-- Sound, provided the identifiers stored under are new. -/
def SoundForNew (ids : List MemoryId) (before after : Db) : Prop :=
  (∀ id ∈ ids, before.tombstones.contains id = false) → Sound before after

omit [Host] in
theorem within_discard {α : Type} {relation : Db → Db → Prop} {body : StoreM α}
    (inner : Within relation body) : Within relation (StoreCommand.discard body) := by
  intro state value next ran
  obtain ⟨_, _, bodyRan, done⟩ := bind_eq_ok.mp ran
  cases pure_eq_ok.mp done
  exact inner bodyRan

omit [Host] in
theorem withinSoundForNew_of_storedAs {α : Type} {ids : List MemoryId} {body : StoreM α}
    (inner : Within (StoredAs ids) body) :
    Within (SoundForNew ids) (StoreCommand.discard body) :=
  (within_discard inner).mono fun _ _ stored => stored.2

omit [Host] in
theorem withinSoundForNew_of_sound {α : Type} {ids : List MemoryId} {body : StoreM α}
    (inner : Within Sound body) : Within (SoundForNew ids) body :=
  inner.mono fun _ _ sound _ => sound

omit [Host] in
theorem withinSoundForNew_discard {α : Type} {ids : List MemoryId} {body : StoreM α}
    (inner : Within Sound body) : Within (SoundForNew ids) (StoreCommand.discard body) :=
  withinSoundForNew_of_sound (within_discard inner)

omit [Host] in
theorem withinSoundForNew_of_leavesMemories {α : Type} {ids : List MemoryId} {body : StoreM α}
    (inner : LeavesMemories body) : Within (SoundForNew ids) body :=
  withinSoundForNew_of_sound (withinSound_of_leavesMemories inner)

/-- Every command is sound. -/
theorem withinSoundForNew_body (handle : StoreHandle) (now : Instant) (command : StoreCommand) :
    Within (SoundForNew command.newIds) (command.body handle now) := by
  cases command with
  | store item audit =>
      exact withinSoundForNew_of_storedAs (withinStoredAs_store _ _ _)
  | storeWithSupersession item supersedes audit =>
      exact withinSoundForNew_of_storedAs (withinStoredAs_storeWithSupersession _ _ _ _)
  | storeWithMetadata item supersedes metadata audit =>
      exact withinSoundForNew_of_storedAs (withinStoredAs_storeWithMetadata _ _ _ _ _ _)
  | storeWithMetadataContexts request =>
      exact withinSoundForNew_of_storedAs (withinStoredAs_storeWithMetadataContexts _ _ _)
  | storeBatch items audits =>
      exact withinSoundForNew_of_storedAs (withinStoredAs_storeBatch _ _ _)
  | storeBatchWithSupersession items supersedes audits =>
      exact withinSoundForNew_of_storedAs (withinStoredAs_storeBatchWithSupersession _ _ _ _)
  | storeBatchWithMetadata items supersedes metadata audits =>
      exact withinSoundForNew_of_storedAs (withinStoredAs_storeBatchWithMetadata _ _ _ _ _ _)
  | storeBatchWithMetadataContexts items supersedes metadata contextIds audits contextAudits =>
      exact withinSoundForNew_of_storedAs
        (withinStoredAs_storeBatchWithMetadataContexts _ _ _ _ _ _ _ _)
  | update id changes => exact withinSoundForNew_discard (withinSound_applyUpdate _ _ _)
  | updateAuthorized id changes principal audit =>
      exact withinSoundForNew_discard (withinSound_updateAuthorized _ _ _ _ _)
  | updateAuthorizedWithMetadata id changes patch principal audit =>
      exact withinSoundForNew_discard (withinSound_updateAuthorizedWithMetadata _ _ _ _ _ _)
  | updateAuthorizedWithMetadataContexts id changes patch contextIds principal audit
      contextAudit =>
      exact withinSoundForNew_discard
        (withinSound_updateAuthorizedWithMetadataContexts _ _ _ _ _ _ _ _)
  | updateIfUnmodified id expectedRevision changes patch contextIds embedding principal audit
      contextAudit =>
      exact withinSoundForNew_discard
        (withinSound_updateAuthorizedIfUnmodified _ _ _ _ _ _ _ _ _ _ _ _)
  | bulkUpdate ids changes principal audit =>
      exact withinSoundForNew_discard (withinSound_bulkUpdateIds _ _ _ _ _)
  | delete id => exact withinSoundForNew_discard (within_applyDelete withinSound_entombMemory _ _)
  | deleteAuthorized id principal audit =>
      exact withinSoundForNew_discard (within_deleteAuthorized withinSound_entombMemory withinSound_insertAuditDraft _ _ _ _)
  | deleteIfUnmodified id expectedRevision principal audit =>
      exact withinSoundForNew_discard (within_deleteAuthorizedIfUnmodified withinSound_entombMemory withinSound_insertAuditDraft _ _ _ _ _)
  | bulkDelete ids principal audit =>
      exact withinSoundForNew_discard (within_bulkDeleteIds withinSound_entombMemory withinSound_insertAuditDraft _ _ _ _)
  | evictExpired scope audit =>
      exact withinSoundForNew_discard (within_evictExpired withinSound_entombMemory withinSound_insertAuditDraft _ _ _)
  | markSupersededBy id supersededBy =>
      exact withinSoundForNew_discard (withinSound_markSuperseded _ _)
  | markSupersededByAuthorized id supersededBy principal audit =>
      exact withinSoundForNew_discard (withinSound_markSupersededByAuthorized _ _ _ _)
  | markSupersededIfUnchanged member representative principal audit =>
      exact withinSoundForNew_discard (withinSound_markSupersededIfUnchanged _ _ _ _)
  | recordSearchImpression ids =>
      exact withinSoundForNew_of_sound (withinSound_recordSearchImpression _ _)
  | recordMemoryUse decayMass ids principal eventWeight =>
      exact withinSoundForNew_discard (withinSound_recordMemoryUse _ _ _ _ _)
  | writeAuditEntry id audit =>
      exact withinSoundForNew_of_sound (withinSound_insertAuditDraft _ _)
  | claimForReembed principal limit token =>
      exact withinSoundForNew_discard (withinSound_claimForReembed _ _ _ _)
  | releaseEmbeddingClaim id expectedRevision token =>
      exact withinSoundForNew_discard (withinSound_releaseEmbeddingClaim _ _ _)
  | setEmbedding id embedding expectedRevision =>
      exact withinSoundForNew_of_sound (withinSound_setEmbedding _ _ _ _ _)
  | verifyEmbeddingProfile profile =>
      exact withinSoundForNew_of_sound (withinSound_verifyEmbeddingProfile _)
  | reindexEmbeddings profile =>
      exact withinSoundForNew_of_sound (withinSound_reindexEmbeddings _)
  | upsertMetadata metadata audit =>
      exact withinSoundForNew_of_sound (withinSound_upsertMetadataAudited _ _ _)
  | migrateMetadata dryRun audit =>
      exact withinSoundForNew_discard (withinSound_migrateMetadata _ _ _)
  | registerScope newId scope principal =>
      exact withinSoundForNew_of_leavesMemories (leavesMemories_registerLegacyScopeContext _ _ _ _)
  | reassignScope newId fromScope toScope origin principal audit =>
      exact withinSoundForNew_discard (withinSound_applyReassignScope _ _ _ _ _ _ _)
  | replaceMemoryContexts id contextIds principal audit =>
      exact withinSoundForNew_discard (withinSound_replaceMemoryContexts _ _ _ _ _)
  | createContext draft audit =>
      exact withinSoundForNew_discard
        (withinSound_of_leavesMemories (leavesMemories_createContext _ _ _))
  | setContextParent id parentId principal audit =>
      exact withinSoundForNew_of_leavesMemories (leavesMemories_setContextParent _ _ _ _ _)
  | setContextLifecycle id lifecycle principal audit =>
      exact withinSoundForNew_of_leavesMemories (leavesMemories_setContextLifecycle _ _ _ _ _)
  | grantContextUse id grantee principal audit =>
      exact withinSoundForNew_of_leavesMemories (leavesMemories_grantContextUse _ _ _ _ _)
  | revokeContextUse id grantee principal audit =>
      exact withinSoundForNew_of_leavesMemories (leavesMemories_revokeContextUse _ _ _ _ _)
  | replaceContextGrants id grantees principal audit =>
      exact withinSoundForNew_of_leavesMemories (leavesMemories_replaceContextGrants _ _ _ _ _)
  | updateContextDefinition id patch principal audit =>
      exact withinSoundForNew_of_leavesMemories (leavesMemories_updateContextDefinition _ _ _ _ _)
  | upsertContextKind kind displayName enabled principal audit =>
      exact withinSoundForNew_of_leavesMemories (leavesMemories_upsertContextKind _ _ _ _ _ _)
  | upsertContextKindPolicy layer policyPrincipal kind policy principal audit =>
      exact withinSoundForNew_of_leavesMemories
        (leavesMemories_upsertContextKindPolicy _ _ _ _ _ _ _)
  | upsertContextAnchorPolicy anchorId policyPrincipal policy principal audit =>
      exact withinSoundForNew_of_leavesMemories
        (leavesMemories_upsertContextAnchorPolicy _ _ _ _ _ _)
  | rollbackUnreferencedLegacyContext id principal =>
      exact withinSoundForNew_discard
        (withinSound_of_leavesMemories (leavesMemories_rollbackUnreferencedLegacyContext _ _))

/-- One step of the store is sound, committed or aborted. -/
theorem storeStep_sound {db next : Db} {call : StoreCall} (stepEq : storeStep db call = some next) :
    Sound db next := by
  obtain ⟨unused, unchanged | ran⟩ := storeStep_ran stepEq
  · subst unchanged
    exact Std.Refl.refl next
  · have newIds : ∀ id ∈ call.command.newIds, db.tombstones.contains id = false := by
      simpa [Db.idsUnused, List.all_eq_true] using unused
    exact withinSoundForNew_body call.handle call.now call.command ran newIds

/-- Whole runs of the store are sound. -/
theorem storeRun_sound {db final : Db} {calls : List StoreCall}
    (runEq : run storeStep db calls = some final) : Sound db final := by
  have anyState : True := trivial
  exact run_relation (fun state => Std.Refl.refl state)
    (fun first second third => IsTrans.trans first second third)
    (fun _ _ _ _ stepEq => ⟨anyState, storeStep_sound stepEq⟩) anyState runEq

/-! ## Applied optimistic writes -/

/-- Whether a call is an optimistic write to a memory with an expected revision
and returns `Applied`. -/
def StoreCall.appliesTo (call : StoreCall) (id : MemoryId) (expected : Int) (db : Db) : Bool :=
  match call.command with
  | .updateIfUnmodified target revision changes patch contextIds embedding principal audit
      contextAudit =>
      decide (target = id ∧ revision = expected) &&
        match updateAuthorizedIfUnmodified call.handle.dimensions call.handle.activeProfile target
          revision changes patch contextIds embedding principal audit contextAudit call.now db with
        | .ok (result, _) => decide (result.outcome = .applied)
        | .error _ => false
  | .deleteIfUnmodified target revision principal audit =>
      decide (target = id ∧ revision = expected) &&
        match deleteAuthorizedIfUnmodified target revision principal audit call.now db with
        | .ok (outcome, _) => decide (outcome = .applied)
        | .error _ => false
  | _ => false

omit [Host] in
theorem Db.exists_view {db : Db} {id : MemoryId} {row : MemoryRow}
    (found : db.memories.find? id = some row) :
    ∃ view, db.view id = some view ∧ view.recordRevision = row.recordRevision :=
  ⟨⟨row.recordRevision, row.revisedColumns, db.attachments id⟩, by simp [Db.view, found], rfl⟩

theorem view_of_updateIfUnmodified {dimensions : Nat} {activeProfile : Option EmbeddingProfile}
    {id : MemoryId} {expected : Int} {update : MemoryUpdate} {patch : Option MetadataPatch}
    {contextIds : Option (List ContextId)} {embedding : Option Embedding} {principal : String}
    {audit : AuditDraft} {contextAudit : Option ContextAuditDraft} {now : Instant} {db next : Db}
    {result : AuthorizedUpdateOutcome} (applied : result.outcome = .applied)
    (ran : updateAuthorizedIfUnmodified dimensions activeProfile id expected update patch
      contextIds embedding principal audit contextAudit now db = .ok (result, next)) :
    ∃ view, db.view id = some view ∧ view.recordRevision = expected := by
  have checksVector : ReadsOnly (onSome embedding fun vector =>
      validateEmbeddingVector vector dimensions) :=
    Within.onSome fun _ _ => readsOnly_validateEmbeddingVector _ _
  obtain ⟨_, afterContent⟩ := of_require_bind ran
  obtain ⟨_, _, afterVector⟩ := checksVector.of_bind afterContent
  obtain ⟨_, afterAudit⟩ := of_require_bind afterVector
  have fetched := of_reads_bind afterAudit
  cases found : db.memories.find? id with
  | none =>
      simp only [found, Option.map_none] at fetched
      cases pure_eq_ok.mp fetched
      cases applied
  | some row =>
      simp only [found, Option.map_some] at fetched
      split at fetched
      · obtain ⟨unmodified, _⟩ := of_require_bind fetched
        obtain ⟨view, viewEq, revisionEq⟩ := Db.exists_view found
        exact ⟨view, viewEq, revisionEq.trans (beq_iff_eq.mp unmodified)⟩
      · cases pure_eq_ok.mp fetched
        cases applied

omit [Host] in
theorem view_of_deleteIfUnmodified {id : MemoryId} {expected : Int} {principal : String}
    {audit : AuditDraft} {now : Instant} {db next : Db}
    (ran : deleteAuthorizedIfUnmodified id expected principal audit now db = .ok (.applied, next)) :
    ∃ view, db.view id = some view ∧ view.recordRevision = expected := by
  have fetched := of_reads_bind ran
  cases found : db.memories.find? id with
  | none =>
      simp only [found, Option.map_none] at fetched
      cases pure_eq_ok.mp fetched
  | some row =>
      simp only [found, Option.map_some] at fetched
      split at fetched
      · obtain ⟨unmodified, _⟩ := of_require_bind fetched
        obtain ⟨view, viewEq, revisionEq⟩ := Db.exists_view found
        exact ⟨view, viewEq, revisionEq.trans (beq_iff_eq.mp unmodified)⟩
      · cases pure_eq_ok.mp fetched

/-- An applied optimistic write found the revision it expected. -/
theorem StoreCall.view_of_appliesTo {call : StoreCall} {id : MemoryId} {expected : Int} {db : Db}
    (applies : call.appliesTo id expected db = true) :
    ∃ view, db.view id = some view ∧ view.recordRevision = expected := by
  unfold StoreCall.appliesTo at applies
  split at applies
  case h_1 =>
    obtain ⟨named, answer⟩ := Bool.and_eq_true_iff.mp applies
    obtain ⟨rfl, rfl⟩ := of_decide_eq_true named
    split at answer
    case h_1 result next ran => exact view_of_updateIfUnmodified (of_decide_eq_true answer) ran
    case h_2 => cases answer
  case h_2 =>
    obtain ⟨named, answer⟩ := Bool.and_eq_true_iff.mp applies
    obtain ⟨rfl, rfl⟩ := of_decide_eq_true named
    split at answer
    case h_1 outcome next ran =>
      rw [of_decide_eq_true answer] at ran
      exact view_of_deleteIfUnmodified ran
    case h_2 => cases answer
  case h_3 => cases applies

/-! ## Compare and set -/

/-- A memory stays with every covered field as it was. -/
def Db.UnchangedAt (id : MemoryId) (before after : Db) : Prop :=
  ∃ old new, before.view id = some old ∧ after.view id = some new ∧ old.SameFields new

omit [Host] in
/-- Between two moments with one revision, no covered field differs. -/
theorem Sound.unchangedAt {before middle after : Db} {id : MemoryId} {old new : MemoryView}
    (early : Sound before middle) (late : Sound middle after) (oldView : before.view id = some old)
    (newView : after.view id = some new) (sameRevision : old.recordRevision = new.recordRevision) :
    Db.UnchangedAt id before middle := by
  cases middleView : middle.view id with
  | none =>
      have tombstoned := (early id).gone (by simp [oldView]) middleView
      have untouched := (late id).fresh middleView (by simp [newView])
      rw [tombstoned] at untouched
      cases untouched
  | some seen =>
      refine ⟨old, seen, oldView, middleView, ?_⟩
      have risen := (late id).kept seen new middleView newView
      rcases ((early id).kept old seen oldView middleView).2 with same | advanced
      · exact same
      · have := risen.1
        omega

/-- At a position of a run, an optimistic write with an expected revision is
applied and changes a covered field. -/
def AppliedChange (start : Db) (calls : List StoreCall) (id : MemoryId) (expected : Int)
    (position : Nat) : Prop :=
  ∃ before call after, run storeStep start (calls.take position) = some before ∧
    calls[position]? = some call ∧ storeStep before call = some after ∧
    call.appliesTo id expected before = true ∧ ¬ Db.UnchangedAt id before after

omit [Host] in
theorem take_split {calls : List StoreCall} {early late : Nat} {call : StoreCall}
    (present : calls[early]? = some call) (lt : early < late) :
    calls.take late = calls.take early ++ call :: (calls.drop (early + 1)).take (late - early - 1) := by
  obtain ⟨bound, callEq⟩ := List.getElem?_eq_some_iff.mp present
  have lateEq : late = early + (late - early - 1 + 1) := by omega
  rw [lateEq, List.take_add, List.drop_eq_getElem_cons bound, callEq, List.take_succ_cons]
  simp

theorem AppliedChange.not_earlier {start : Db} {calls : List StoreCall} {id : MemoryId}
    {expected : Int} {early late : Nat} (first : AppliedChange start calls id expected early)
    (second : AppliedChange start calls id expected late) : ¬ early < late := by
  intro lt
  obtain ⟨before, call, after, beforeRun, callEq, stepEq, applies, changed⟩ := first
  obtain ⟨laterDb, laterCall, _, laterRun, _, _, laterApplies, _⟩ := second
  rw [take_split callEq lt] at laterRun
  obtain ⟨_, earlyRun, restRun⟩ := run_append_eq_some_iff.mp laterRun
  rw [beforeRun] at earlyRun
  cases earlyRun
  obtain ⟨_, callStep, restRun⟩ := run_cons_eq_some_iff.mp restRun
  rw [stepEq] at callStep
  cases callStep
  obtain ⟨old, oldView, oldRevision⟩ := StoreCall.view_of_appliesTo applies
  obtain ⟨new, newView, newRevision⟩ := StoreCall.view_of_appliesTo laterApplies
  exact changed ((storeStep_sound stepEq).unchangedAt (storeRun_sound restRun) oldView newView
    (oldRevision.trans newRevision.symm))

/-- Optimistic revisions are sound.  A step that changes a covered field of a
memory advances its revision; an applied optimistic write saw no such change
since any moment with the revision it names; and at most one of the optimistic
writes that name one revision is applied with a change. -/
theorem optimistic_revisions_sound (start : Db) :
    (∀ (calls : List StoreCall) (db : Db) (call : StoreCall) (next : Db) (id : MemoryId)
      (old new : MemoryView), run storeStep start calls = some db →
      storeStep db call = some next → db.view id = some old → next.view id = some new →
      ¬ old.SameFields new → old.recordRevision < new.recordRevision) ∧
    (∀ (earlier : List StoreCall) (db : Db) (first : List StoreCall) (middle : Db)
      (rest : List StoreCall) (final : Db) (call : StoreCall) (id : MemoryId) (expected : Int)
      (view : MemoryView),
      run storeStep start earlier = some db → db.view id = some view →
      view.recordRevision = expected → run storeStep db first = some middle →
      run storeStep middle rest = some final → call.appliesTo id expected final = true →
      Db.UnchangedAt id db middle) ∧
    ∀ (calls : List StoreCall) (id : MemoryId) (expected : Int),
      {position | AppliedChange start calls id expected position}.Subsingleton := by
  refine ⟨?_, ?_, ?_⟩
  · intro calls db call next id old new _ stepEq oldView newView changed
    exact ((storeStep_sound stepEq id).kept old new oldView newView).2.resolve_left changed
  · intro earlier db first middle rest final call id expected view _ oldView revision firstRun
      restRun applies
    obtain ⟨new, newView, newRevision⟩ := StoreCall.view_of_appliesTo applies
    exact (storeRun_sound firstRun).unchangedAt (storeRun_sound restRun) oldView newView
      (revision.trans newRevision.symm)
  · intro calls id expected early earlyMem late lateMem
    have notBefore := AppliedChange.not_earlier earlyMem lateMem
    have notAfter := AppliedChange.not_earlier lateMem earlyMem
    omega

omit [Host] in
/-- An edit of the memory 7 that expects a revision. -/
def editExpecting (expected : Int) (content : String) : StoreCall :=
  ⟨⟨3, none⟩, 0, .updateIfUnmodified ⟨7⟩ expected
    { MemoryUpdate.default with content := some content } none none none "owner"
    ⟨.update, some "owner", 0, none⟩ none⟩

omit [Host] in
/-- A memory is stored and found, and then two edits name the revision it has. -/
def contendedEdits : List StoreCall :=
  [⟨⟨3, none⟩, 0, .store ⟨Memory.plain ⟨7⟩ "owner" "a note" 0, none⟩ none⟩,
    ⟨⟨3, none⟩, 0, .recordSearchImpression [⟨7⟩]⟩, editExpecting 0 "the first edit",
    editExpecting 0 "the second edit"]

omit [Host] in
theorem optimistic_revisions_sound_contended :
    ∃ stored found edited old new,
      @run _ _ (@storeStep asciiHost) (Db.empty 3) (contendedEdits.take 1) = some stored ∧
      @run _ _ (@storeStep asciiHost) stored ((contendedEdits.drop 1).take 1) = some found ∧
      @storeStep asciiHost found (editExpecting 0 "the first edit") = some edited ∧
      found.view ⟨7⟩ = some old ∧ edited.view ⟨7⟩ = some new ∧
      old.recordRevision < new.recordRevision ∧ Db.UnchangedAt ⟨7⟩ stored found ∧
      {position | @AppliedChange asciiHost (Db.empty 3) contendedEdits ⟨7⟩ 0 position} = {2} := by
  have ran : ∃ stored found edited view old new,
      @run _ _ (@storeStep asciiHost) (Db.empty 3) (contendedEdits.take 1) = some stored ∧
      @run _ _ (@storeStep asciiHost) stored ((contendedEdits.drop 1).take 1) = some found ∧
      @storeStep asciiHost found (editExpecting 0 "the first edit") = some edited ∧
      stored.view ⟨7⟩ = some view ∧ found.view ⟨7⟩ = some old ∧ edited.view ⟨7⟩ = some new ∧
      view.recordRevision = 0 ∧
      @StoreCall.appliesTo asciiHost (editExpecting 0 "the first edit") ⟨7⟩ 0 found = true ∧
      old.columns ≠ new.columns := by
    refine ⟨_, _, _, _, _, _, rfl, rfl, rfl, rfl, rfl, rfl, rfl, ?_, ?_⟩ <;> decide +kernel
  obtain ⟨stored, found, edited, view, old, new, storeRun, findRun, stepEq, viewEq, oldEq, newEq,
    revision, applies, differs⟩ := ran
  obtain ⟨advances, unchanged, once⟩ := @optimistic_revisions_sound asciiHost (Db.empty 3)
  have changed : ¬ old.SameFields new := fun same => differs same.1
  have reached := run_append_eq_some_iff.mpr ⟨stored, storeRun, findRun⟩
  have firstEdit : @AppliedChange asciiHost (Db.empty 3) contendedEdits ⟨7⟩ 0 2 := by
    refine ⟨found, _, edited, reached, rfl, stepEq, applies, ?_⟩
    rintro ⟨before, after, beforeEq, afterEq, same⟩
    rw [oldEq] at beforeEq
    rw [newEq] at afterEq
    cases beforeEq
    cases afterEq
    exact changed same
  refine ⟨stored, found, edited, old, new, storeRun, findRun, stepEq, oldEq, newEq, ?_, ?_, ?_⟩
  · exact advances _ found _ edited ⟨7⟩ old new reached stepEq oldEq newEq changed
  · exact unchanged _ stored _ found [] found _ ⟨7⟩ 0 view storeRun viewEq revision findRun rfl
      applies
  · exact (once contendedEdits ⟨7⟩ 0).eq_singleton_of_mem firstEdit

end LocalHold
