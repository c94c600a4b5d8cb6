import LocalHold.Server.DescendantPolicy
import LocalHold.Server.LegacyRevise
import LocalHold.Store.MembershipEffects
import LocalHold.Store.Numbering

/-!
# What a legacy revise leaves of the memberships

The replacement list of a legacy revise is computed from reads at several
moments.  An applied write found the revision that the first of them saw, so no
membership changed between the reads and the write, and the caller saw every
membership that was counted.
-/

namespace LocalHold

open Relational Transition Transition.Txn

/-! ## What the write leaves -/

section Writes

variable {id : MemoryId} {contextIds : List ContextId} {db next : Db} {value : Unit}

theorem Db.membershipsOf_congr {other : Db} (same : other.memoryContexts = db.memoryContexts) :
    other.membershipsOf id = db.membershipsOf id := by
  rw [Db.membershipsOf, Db.membershipsOf, same]

theorem memoryContexts_of_leavesMembers {α : Type} {body : StoreM α} {result : α}
    (leaves : LeavesMembers body) (ran : body db = .ok (result, next)) :
    next.memoryContexts = db.memoryContexts :=
  (Prod.mk.inj (leaves ran)).2

variable [Host]

/-- Attaching a memory to contexts inserts them in order. -/
theorem membershipsOf_insertMemoryContexts {principal scope : String} {audit : ContextAuditDraft}
    {now : Instant} {preserved : List ContextId}
    (ran : insertMemoryContexts id contextIds principal scope audit now preserved db =
      .ok (value, next)) :
    next.membershipsOf id = db.membershipsOf id ++ membershipRows id contextIds.zipIdx now := by
  obtain ⟨_, _, ran⟩ := (readsOnly_validateAuditActor audit principal).of_bind ran
  obtain ⟨_, ran⟩ := of_require_bind ran
  obtain ⟨_, _, ran⟩ := (readsOnly_requireUsableContexts _ _ _).of_bind ran
  obtain ⟨_, _, ran⟩ := (readsOnly_primaryContextKey contextIds).of_bind ran
  obtain ⟨_, ran⟩ := of_require_bind ran
  obtain ⟨_, inserted, insertRan, audited⟩ := bind_eq_ok.mp ran
  rw [Db.membershipsOf_congr (memoryContexts_of_leavesMembers
    (quiet_insertContextAudit _ _ _ _).leavesMembers audited)]
  exact (insertMembershipRows_ok insertRan).1

/-- Replacing the contexts of a memory leaves exactly the new ones. -/
theorem membershipsOf_replaceMemoryContextsTx {principal scope : String}
    {audit : ContextAuditDraft} {now : Instant}
    (ran : replaceMemoryContextsTx id contextIds principal scope audit now db =
      .ok (value, next)) :
    next.membershipsOf id = membershipRows id contextIds.zipIdx now := by
  have ran := of_reads_bind ran
  obtain ⟨_, emptied, deleteRan, ran⟩ := bind_eq_ok.mp ran
  obtain ⟨_, joined, insertRan, ran⟩ := bind_eq_ok.mp ran
  have copies : LeavesMembers (do
      setMetadataScope id scope now
      let _ ← updateMemory id fun row =>
        { row with provenance := row.provenance.withConversation scope }) := by
    refine Within.bind (Within.writes fun _ => rfl) fun _ => ?_
    exact Within.bind (Quiet.leavesMembers (quiet_updateMemory fun _ => rfl)) fun _ => Within.pure
  rw [Db.membershipsOf_congr (memoryContexts_of_leavesMembers copies ran),
    membershipsOf_insertMemoryContexts insertRan, membershipsOf_deleteMembershipRows deleteRan,
    List.nil_append]

theorem membershipsOf_replaceContextsOptimistically {principal : String}
    {contextAudit : Option ContextAuditDraft} {revisionAt : Instant}
    (ran : replaceContextsOptimistically id contextIds principal contextAudit revisionAt db =
      .ok (value, next)) :
    next.membershipsOf id = membershipRows id contextIds.zipIdx revisionAt := by
  obtain ⟨_, _, ran⟩ := of_expect_bind ran
  obtain ⟨_, _, ran⟩ := (readsOnly_optimisticCompatibilityScope _).of_bind ran
  have ran := of_reads_bind ran
  obtain ⟨_, _, _, ran⟩ := bind_eq_ok.mp ran
  exact membershipsOf_replaceMemoryContextsTx ran

/-- An optimistic update that names contexts and is applied leaves the memory in
exactly these contexts. -/
theorem membershipsOf_updateAuthorizedIfUnmodified {dimensions : Nat}
    {activeProfile : Option EmbeddingProfile} {expected : Int} {update : MemoryUpdate}
    {patch : Option MetadataPatch} {embedding : Option Embedding} {principal : String}
    {audit : AuditDraft} {contextAudit : Option ContextAuditDraft} {now : Instant}
    {result : AuthorizedUpdateOutcome}
    (ran : updateAuthorizedIfUnmodified dimensions activeProfile id expected update patch
      (some contextIds) embedding principal audit contextAudit now db = .ok (result, next))
    (applied : result.outcome = .applied) :
    ∃ revisionAt, next.membershipsOf id = membershipRows id contextIds.zipIdx revisionAt := by
  have checksVector : ReadsOnly (onSome embedding fun vector =>
      validateEmbeddingVector vector dimensions) :=
    Within.onSome fun _ _ => readsOnly_validateEmbeddingVector _ _
  obtain ⟨_, ran⟩ := of_require_bind ran
  obtain ⟨_, _, ran⟩ := checksVector.of_bind ran
  obtain ⟨_, ran⟩ := of_require_bind ran
  have ran := of_reads_bind ran
  cases found : db.memories.find? id with
  | none =>
      rw [found] at ran
      cases pure_eq_ok.mp ran
      cases applied
  | some row =>
      rw [found] at ran
      dsimp only [Option.map_some] at ran
      split at ran
      · obtain ⟨_, ran⟩ := of_require_bind ran
        obtain ⟨_, _, _, ran⟩ := bind_eq_ok.mp ran
        refine ⟨nextMemoryRevision now row.toMemory.updatedAt, ?_⟩
        obtain ⟨_, _, _, ran⟩ := bind_eq_ok.mp ran
        obtain ⟨_, _, _, ran⟩ := bind_eq_ok.mp ran
        obtain ⟨_, _, _, ran⟩ := bind_eq_ok.mp ran
        obtain ⟨_, _, _, ran⟩ := bind_eq_ok.mp ran
        obtain ⟨_, replaced, replaceRan, ran⟩ := bind_eq_ok.mp ran
        obtain ⟨_, audited, auditRan, done⟩ := bind_eq_ok.mp ran
        cases pure_eq_ok.mp done
        rw [Db.membershipsOf_congr (memoryContexts_of_leavesMembers
          (quiet_insertAuditDraft _ _).leavesMembers auditRan)]
        exact membershipsOf_replaceContextsOptimistically replaceRan
      · cases pure_eq_ok.mp ran
        cases applied

end Writes

/-- Memberships that were inserted in order are listed in that order. -/
theorem Db.listedMemberships_of_rows {db : Db} {id : MemoryId} {contextIds : List ContextId}
    {now : Instant} (rows : db.membershipsOf id = membershipRows id contextIds.zipIdx now) :
    (db.listedMemberships id).map (·.contextId) = contextIds := by
  have ordered : (membershipRows id contextIds.zipIdx now).Pairwise fun first second =>
      decide (first.ordinal ≤ second.ordinal) = true := by
    have positions : (contextIds.zipIdx.map (·.2)).Pairwise (· < ·) := by
      rw [List.zipIdx_map_snd]
      exact List.pairwise_lt_range'
    rw [List.pairwise_map] at positions
    rw [membershipRows, List.pairwise_map]
    exact positions.imp fun earlier => decide_eq_true (le_of_lt earlier)
  rw [Db.listedMemberships, rows, orderBy_eq_self ordered, membershipRows, List.map_map]
  exact List.zipIdx_map_fst 0 contextIds

/-! ## Reads under one revision -/

theorem Db.attachments_of_view {db : Db} {id : MemoryId} {view : MemoryView}
    (viewEq : db.view id = some view) : view.attachments = db.attachments id := by
  rw [Db.view, Option.map_eq_some_iff] at viewEq
  rcases viewEq with ⟨row, _, rfl⟩
  rfl

/-- Since the memory had a revision, all steps of the store were sound. -/
def Db.Since (seen : Db) (id : MemoryId) (expected : Int) : Prop :=
  ∃ past view, past.view id = some view ∧ view.recordRevision = expected ∧ Sound past seen

/-- A store that was passed through since the memory had a revision. -/
structure SeenSince (passed : Db → Prop) (db : Db) (id : MemoryId) (expected : Int) (seen : Db) :
    Prop where
  passed : passed seen
  since : seen.Since id expected
  sound : Sound seen db

section Reads

variable {passed later : Db → Prop} {db next seen : Db} {id : MemoryId} {expected : Int}

theorem Db.Since.mono (since : seen.Since id expected) (sound : Sound seen db) :
    db.Since id expected := by
  rcases since with ⟨past, view, viewEq, revision, early⟩
  exact ⟨past, view, viewEq, revision, IsTrans.trans past seen db early sound⟩

theorem SeenSince.mono (read : SeenSince passed db id expected seen)
    (longer : ∀ store, passed store → later store) (sound : Sound db next) :
    SeenSince later next id expected seen where
  passed := longer seen read.passed
  since := read.since
  sound := IsTrans.trans seen db next read.sound sound

/-- A memory that still has the revision still has the memberships. -/
theorem SeenSince.membershipsOf (read : SeenSince passed db id expected seen)
    {view : MemoryView} (viewEq : db.view id = some view)
    (revision : view.recordRevision = expected) : seen.membershipsOf id = db.membershipsOf id := by
  rcases read.since with ⟨past, old, oldView, oldRevision, early⟩
  have same := oldRevision.trans revision.symm
  rcases early.unchangedAt read.sound oldView viewEq same with
    ⟨_, older, oldEq, olderView, oldFields⟩
  rw [oldView] at oldEq
  cases oldEq
  rcases Sound.unchangedAt (IsTrans.trans past seen db early read.sound) (Std.Refl.refl db) oldView
    viewEq same with ⟨_, now, oldEq, nowEq, nowFields⟩
  rw [oldView] at oldEq
  cases oldEq
  have attached := (Db.attachments_of_view olderView).symm.trans
    (oldFields.2.symm.trans (nowFields.2.trans (Db.attachments_of_view nowEq)))
  exact congrArg Attachments.memberships attached

end Reads

/-! ## The replacement list -/

section Replacement

variable {principal : String} {id : MemoryId} {db : Db}

theorem Db.visibleMembership_eq_some {row : MembershipRow} {membership : MemoryContext}
    (seen : db.visibleMembership principal row = some membership) :
    membership.context.id = row.contextId ∧ membership.ordinal = row.ordinal := by
  rw [Db.visibleMembership, Option.bind_eq_some_iff] at seen
  rcases seen with ⟨stored, found, visible⟩
  split at visible
  · cases visible
    have sameId := (Table.find?_eq_some_iff.mp found).2
    exact ⟨sameId, rfl⟩
  · cases visible

/-- The visible memberships name contexts of memberships, in their order. -/
theorem sublist_visibleMemberships {rows : List MembershipRow} :
    ((rows.filterMap (db.visibleMembership principal)).map (·.context.id)).Sublist
      (rows.map (·.contextId)) := by
  induction rows with
  | nil => exact List.Sublist.refl []
  | cons row rest inductionHypothesis =>
      rw [List.filterMap_cons]
      cases seen : db.visibleMembership principal row with
      | none => exact inductionHypothesis.cons row.contextId
      | some membership =>
          rw [List.map_cons, List.map_cons, (Db.visibleMembership_eq_some seen).1]
          exact inductionHypothesis.cons_cons row.contextId

/-- The contexts of a memory are distinct. -/
theorem Db.nodup_listedContexts : ((db.listedMemberships id).map (·.contextId)).Nodup :=
  (((perm_orderBy _ _).map _).nodup_iff).mpr (db.nodup_membershipContexts id)

theorem nodup_replacementContexts {selected : ContextId} :
    (replacementContexts selected (db.visibleMemberships id principal)).Nodup := by
  have distinct := Db.nodup_listedContexts.sublist
    (@sublist_visibleMemberships principal db (db.listedMemberships id))
  rw [replacementContexts, List.nodup_cons]
  constructor
  · intro again
    have other := (List.mem_filter.mp again).2
    simp at other
  · exact (distinct.sublist (List.filter_sublist.map _)).filter _

/-- Where every membership is visible, the list is computed from all of them. -/
theorem replacementContexts_of_rows {rows : List MembershipRow} {selected : ContextId}
    (complete : (rows.filterMap (db.visibleMembership principal)).length = rows.length) :
    replacementContexts selected (rows.filterMap (db.visibleMembership principal)) =
      selected :: ((rows.filter fun row => row.ordinal != 0).map
        (·.contextId)).filter fun contextId => contextId != selected := by
  have seen := List.filterMap_length_eq_length.mp complete
  have shown : ((rows.filterMap (db.visibleMembership principal)).filter
        fun membership => membership.ordinal != 0).map (·.context.id) =
      (rows.filter fun row => row.ordinal != 0).map (·.contextId) := by
    clear complete
    induction rows with
    | nil => rfl
    | cons row rest inductionHypothesis =>
        obtain ⟨membership, found⟩ := Option.isSome_iff_exists.mp (seen row List.mem_cons_self)
        obtain ⟨sameContext, sameOrdinal⟩ := Db.visibleMembership_eq_some found
        have restSame := inductionHypothesis fun other later =>
          seen other (List.mem_cons_of_mem row later)
        rw [List.filterMap_cons_some found, List.filter_cons, List.filter_cons, sameOrdinal]
        split
        · rw [List.map_cons, List.map_cons, restSame, sameContext]
        · exact restSame
  rw [replacementContexts, shown]

end Replacement

/-! ## The lookups of the replacement list -/

variable [Host] [IdentityHost]

section Lookups

variable {principal : String} {db : Db}

omit [Host] [IdentityHost] in
theorem Db.id_of_mem_findContextRecords {id : ContextId} {includeArchived : Bool}
    {record : ContextRecord}
    (found : record ∈ db.findContextRecords principal includeArchived (.id id)) :
    record.context.id = id := by
  rw [Db.findContextRecords, List.mem_map] at found
  rcases found with ⟨row, taken, rfl⟩
  have selected := (Table.mem_select_iff.mp (mem_orderBy.mp (List.mem_of_mem_take taken))).2
  rw [Bool.and_eq_true, Bool.and_eq_true] at selected
  exact beq_iff_eq.mp selected.1.2

/-- A reference by identifier that resolves selects this context. -/
theorem directIds_of_resolveReference_byId {state next : SelectionState} {id : ContextId}
    (ran : resolveReference db principal state (ContextReference.byId id) = .ok next)
    (resolved : next.unresolvedExplicitRef = false) :
    state.unresolvedExplicitRef = false ∧
      (id ∉ state.directIds → next.directIds = state.directIds ++ [id]) := by
  rw [resolveReference] at ran
  obtain ⟨lookup, lookupRan, ran⟩ := Checked.bind_eq_ok.mp ran
  cases lookupRan
  split at ran
  case h_1 record found =>
    cases ran
    have sameId : record.context.id = id :=
      Db.id_of_mem_findContextRecords (by rw [found]; exact List.mem_singleton_self record)
    refine ⟨resolved, fun new => ?_⟩
    rw [SelectionState.select, sameId, if_neg new]
  case h_2 =>
    cases ran
    cases resolved
  case h_3 => cases ran

omit [Host] [IdentityHost] in
/-- A selection that is finished has the contexts that were looked up. -/
theorem directIds_of_finishSelection {policyState : ContextPolicyState}
    {envelope : ContextEnvelope} {query : Option String} {state : SelectionState}
    {selection : ResolvedContextSelection}
    (ran : finishSelection db principal policyState envelope query true state = .ok selection) :
    state.unresolvedExplicitRef = false ∧
      (state.directIds ≠ [] → selection.directIds = state.directIds) := by
  rw [finishSelection] at ran
  obtain ⟨resolved, ran⟩ := Checked.of_ensure_bind ran
  refine ⟨by simpa using resolved, fun nonempty => ?_⟩
  rw [if_neg (by simpa using nonempty)] at ran
  exact directIds_of_resolvePolicies ran

end Lookups

/-! ## What a call remembers -/

namespace LegacyRevise

variable (call : LegacyRevise)

/-- The reads that a replacement list was computed from. -/
def Recalls (passed : Db → Prop) (db : Db) (expected : Int) (contexts : List ContextId) : Prop :=
  ∃ listed counted selected, SeenSince passed db call.id expected listed ∧
    SeenSince passed db call.id expected counted ∧
    (counted.membershipsOf call.id).length =
      (listed.visibleMemberships call.id call.principal).length ∧
    call.selection.directIds.head? = some selected ∧
    contexts = replacementContexts selected (listed.visibleMemberships call.id call.principal)

/-- What a call knows in each phase. -/
def Remembers (passed : Db → Prop) (db : Db) : RevisePhase → Prop
  | .listing expected => db.Since call.id expected
  | .counting expected existing => ∃ listed, SeenSince passed db call.id expected listed ∧
      existing = listed.visibleMemberships call.id call.principal
  | .opening expected contexts => call.Recalls passed db expected contexts
  | .looking expected contexts _ state remaining => call.Recalls passed db expected contexts ∧
      (state.unresolvedExplicitRef = false → state.directIds ++ remaining = contexts)
  | .writing expected complete => call.Recalls passed db expected complete.directIds
  | .loading | .confirming | .cleaning _ | .ended _ => True

variable {call} {passed later : Db → Prop} {db next : Db} {expected : Int}

omit [Host] [IdentityHost] in
theorem Recalls.mono {contexts : List ContextId} (recalls : call.Recalls passed db expected contexts)
    (longer : ∀ store, passed store → later store) (sound : Sound db next) :
    call.Recalls later next expected contexts := by
  rcases recalls with ⟨listed, counted, selected, first, second, rest⟩
  exact ⟨listed, counted, selected, first.mono longer sound, second.mono longer sound, rest⟩

omit [Host] [IdentityHost] in
theorem Recalls.nodup {contexts : List ContextId}
    (recalls : call.Recalls passed db expected contexts) : contexts.Nodup := by
  rcases recalls with ⟨_, _, _, _, _, _, _, rfl⟩
  exact nodup_replacementContexts

omit [Host] [IdentityHost] in
theorem Remembers.mono {phase : RevisePhase} (remembers : call.Remembers passed db phase)
    (longer : ∀ store, passed store → later store) (sound : Sound db next) :
    call.Remembers later next phase := by
  cases phase with
  | listing expected => exact Db.Since.mono remembers sound
  | counting expected existing =>
      rcases remembers with ⟨listed, seen, rfl⟩
      exact ⟨listed, seen.mono longer sound, rfl⟩
  | opening expected contexts => exact Recalls.mono remembers longer sound
  | looking expected contexts policies state remaining =>
      exact ⟨Recalls.mono remembers.1 longer sound, remembers.2⟩
  | writing expected complete => exact Recalls.mono remembers longer sound
  | loading => trivial
  | confirming => trivial
  | cleaning outcome => trivial
  | ended outcome => trivial

/-! ## One step of a call -/

omit [Host] [IdentityHost] in
/-- Only a memory that is shown in full has an optimistic revision. -/
theorem recordRevision_of_optimisticRevision {memory view : Memory} {caller : Option String}
    (shown : memory.applyAccessPolicy caller = some view)
    (revision : view.optimisticRevision = some expected) : memory.recordRevision = expected := by
  rw [Memory.optimisticRevision] at revision
  split at revision
  · cases revision
  · rename_i full
    cases level : memory.checkAccessLevel caller <;>
      simp only [Memory.applyAccessPolicy, level, Option.some.injEq, reduceCtorEq] at shown
    · rw [shown]
      exact Option.some.inj revision
    · rw [← shown] at full
      exact absurd rfl full

omit [Host] [IdentityHost] in
theorem since_of_getMemory {caller : Option String} {now : Instant} {memory : Memory}
    {id : MemoryId} (found : db.getMemory id caller now = some memory)
    (revision : memory.optimisticRevision = some expected) : db.Since id expected := by
  rw [Db.getMemory] at found
  cases stored : db.memories.find? id with
  | none =>
      rw [stored] at found
      cases found
  | some row =>
      rw [stored] at found
      dsimp only at found
      split at found
      · cases found
      · rcases Db.exists_view stored with ⟨view, viewEq, viewRevision⟩
        have same : row.recordRevision = expected :=
          recordRevision_of_optimisticRevision found revision
        exact ⟨db, view, viewEq, viewRevision.trans same, Std.Refl.refl db⟩

omit [Host] [IdentityHost] in
theorem visibleMemberships_of_getMemoryContexts {id : MemoryId} {principal : String}
    {now : Instant} {existing : List MemoryContext}
    (ran : db.getMemoryContexts id principal now = .ok existing) :
    existing = db.visibleMemberships id principal := by
  rw [Db.getMemoryContexts] at ran
  split at ran
  · cases ran
  · split at ran
    · cases ran
    · exact (Except.ok.inj ran).symm

omit [Host] [IdentityHost] in
theorem length_of_countMemoryContextsForWrite {id : MemoryId} {principal : String} {count : Nat}
    (counted : db.countMemoryContextsForWrite id principal = some count) :
    (db.membershipsOf id).length = count := by
  rw [Db.countMemoryContextsForWrite] at counted
  split at counted
  · cases counted
  · split at counted
    · exact Option.some.inj counted
    · cases counted

/-- Each step of a call is sound. -/
theorem sound_advance (now : Instant) (phase : RevisePhase) :
    Sound db (call.advance db now phase).2 := by
  have unchanged : Sound db db := Std.Refl.refl db
  cases phase with
  | loading =>
      rw [LegacyRevise.advance]
      split
      · exact unchanged
      · split <;> exact unchanged
  | listing expected =>
      rw [LegacyRevise.advance]
      split <;> exact unchanged
  | counting expected existing =>
      rw [LegacyRevise.advance]
      split
      · split <;> exact unchanged
      · exact unchanged
  | opening expected contexts =>
      rw [LegacyRevise.advance]
      split <;> exact unchanged
  | looking expected contexts policies state remaining => exact unchanged
  | writing expected complete =>
      rw [LegacyRevise.advance, advanceWrite]
      split
      · exact unchanged
      · split
        · exact unchanged
        · rename_i ran
          have sound := withinSound_updateAuthorizedIfUnmodified _ _ _ _ _ _ _ _ _ _ _ _ ran
          split <;> exact sound
  | confirming =>
      rw [LegacyRevise.advance]
      split <;> exact unchanged
  | cleaning outcome =>
      rw [LegacyRevise.advance, advanceCleaning]
      split
      · exact unchanged
      · split
        · rename_i ran
          exact withinSound_of_leavesMemories
            (leavesMemories_rollbackUnreferencedLegacyContext _ _) ran
        · exact unchanged
  | ended outcome => exact unchanged

/-- The lookups of the replacement list select its contexts, in its order. -/
theorem Remembers.advanceLooking {contexts remaining : List ContextId}
    {policies : ContextPolicyState} {state : SelectionState}
    (remembers : call.Remembers passed db (.looking expected contexts policies state remaining)) :
    call.Remembers passed db
      (call.advanceLooking db expected contexts policies state remaining) := by
  rcases remembers with ⟨recalls, looked⟩
  cases remaining with
  | nil =>
      rw [LegacyRevise.advanceLooking]
      split
      · trivial
      · rename_i complete finished
        obtain ⟨resolved, selected⟩ := directIds_of_finishSelection finished
        have all := looked resolved
        rw [List.append_nil] at all
        have nonempty : state.directIds ≠ [] := by
          rcases recalls with ⟨_, _, _, _, _, _, _, rfl⟩
          rw [all]
          exact List.cons_ne_nil _ _
        have same : complete.directIds = contexts := (selected nonempty).trans all
        rw [← same] at recalls
        exact recalls
  | cons id rest =>
      rw [LegacyRevise.advanceLooking]
      split
      · trivial
      · rename_i next found
        refine ⟨recalls, fun resolved => ?_⟩
        obtain ⟨earlier, selected⟩ := directIds_of_resolveReference_byId found resolved
        have ahead := looked earlier
        have new : id ∉ state.directIds := by
          intro again
          have distinct := recalls.nodup
          rw [← ahead, List.nodup_append] at distinct
          exact distinct.2.2 id again id List.mem_cons_self rfl
        rw [selected new, List.append_assoc]
        exact ahead

/-- A call remembers its reads from step to step. -/
theorem Remembers.advance {phase : RevisePhase} (remembers : call.Remembers passed db phase)
    (here : passed db) (now : Instant) :
    call.Remembers passed db (call.advance db now phase).1 := by
  have unchanged : Sound db db := Std.Refl.refl db
  cases phase with
  | loading =>
      rw [LegacyRevise.advance]
      split
      · trivial
      · rename_i memory found
        split
        · trivial
        · rename_i revision
          exact since_of_getMemory found revision
  | listing expected =>
      rw [LegacyRevise.advance]
      split
      · trivial
      · rename_i existing ran
        exact ⟨db, ⟨here, remembers, unchanged⟩, visibleMemberships_of_getMemoryContexts ran⟩
  | counting expected existing =>
      rcases remembers with ⟨listed, seen, rfl⟩
      rw [LegacyRevise.advance]
      split
      · rename_i counted
        split
        · trivial
        · rename_i selected chosen
          have countedHere : SeenSince passed db call.id expected db :=
            ⟨here, seen.since.mono seen.sound, unchanged⟩
          exact ⟨listed, db, selected, seen, countedHere,
            length_of_countMemoryContextsForWrite counted, chosen, rfl⟩
      · trivial
  | opening expected contexts =>
      rw [LegacyRevise.advance]
      split
      · trivial
      · exact ⟨remembers, fun _ => rfl⟩
  | looking expected contexts policies state remaining => exact Remembers.advanceLooking remembers
  | writing expected complete =>
      rw [LegacyRevise.advance, advanceWrite]
      split
      · trivial
      · split
        · trivial
        · split <;> trivial
  | confirming =>
      rw [LegacyRevise.advance]
      split <;> trivial
  | cleaning outcome =>
      rw [LegacyRevise.advance, advanceCleaning]
      split
      · trivial
      · split <;> trivial
  | ended outcome => trivial

end LegacyRevise

/-! ## Runs of the clients -/

/-- Every call of the clients remembers its reads. -/
def ReviseWorld.Remembering (world : ReviseWorld) (passed : Db → Prop) : Prop :=
  ∀ (index : Nat) (call : LegacyRevise) (phase : RevisePhase),
    world.calls[index]? = some (call, phase) → call.Remembers passed world.db phase

/-- One step of the clients is sound. -/
theorem reviseStep_sound {world next : ReviseWorld} {event : ReviseEvent}
    (stepEq : reviseStep world event = some next) : Sound world.db next.db := by
  cases event with
  | store call =>
      rw [reviseStep, Option.map_eq_some_iff] at stepEq
      rcases stepEq with ⟨db, dbEq, rfl⟩
      exact storeStep_sound dbEq
  | start call =>
      cases stepEq
      exact Std.Refl.refl world.db
  | advance index now =>
      rw [reviseStep, Option.map_eq_some_iff] at stepEq
      rcases stepEq with ⟨entry, _, rfl⟩
      exact LegacyRevise.sound_advance now entry.2

/-- One step of the clients leaves every call with the reads it remembers. -/
theorem ReviseWorld.Remembering.step {passed later : Db → Prop} {world next : ReviseWorld}
    {event : ReviseEvent} (remembering : world.Remembering passed) (here : passed world.db)
    (longer : ∀ store, passed store → later store)
    (stepEq : reviseStep world event = some next) : next.Remembering later := by
  have sound := reviseStep_sound stepEq
  intro index call phase entry
  cases event with
  | store command =>
      rw [reviseStep, Option.map_eq_some_iff] at stepEq
      rcases stepEq with ⟨db, dbEq, rfl⟩
      exact LegacyRevise.Remembers.mono (remembering index call phase entry) longer sound
  | start started =>
      cases stepEq
      rw [List.getElem?_append] at entry
      split at entry
      · exact LegacyRevise.Remembers.mono (remembering index call phase entry) longer sound
      · rename_i beyond
        cases position : index - world.calls.length with
        | zero =>
            rw [position] at entry
            cases entry
            trivial
        | succ position =>
            rw [‹index - world.calls.length = _›] at entry
            cases entry
  | advance target now =>
      rw [reviseStep, Option.map_eq_some_iff] at stepEq
      rcases stepEq with ⟨⟨advanced, before⟩, advancedEq, rfl⟩
      dsimp only at entry sound ⊢
      rw [List.getElem?_set] at entry
      split at entry
      · split at entry
        · cases entry
          have kept := LegacyRevise.Remembers.advance
            (remembering target _ _ advancedEq) here now
          exact LegacyRevise.Remembers.mono kept longer sound
        · cases entry
      · exact LegacyRevise.Remembers.mono (remembering index call phase entry) longer sound

/-- The stores that a run of the clients passes through. -/
def PassedStore (start : Db) (events : List ReviseEvent) (db : Db) : Prop :=
  ∃ world, PassedThrough reviseStep (ReviseWorld.opening start) events world ∧ world.db = db

/-- In every run the calls remember their reads. -/
theorem remembering_of_run {start : Db} {events : List ReviseEvent} {world : ReviseWorld}
    (reached : run reviseStep (ReviseWorld.opening start) events = some world) :
    world.Remembering (PassedStore start events) := by
  refine @run_history _ _ reviseStep (ReviseWorld.opening start)
    (fun past state => state.Remembering (PassedStore start past)) ?_ ?_ events world reached
  · intro index call phase entry
    cases entry
  · intro past state event next pastRun remembering stepEq
    refine remembering.step ⟨state, passedThrough_final pastRun, rfl⟩ ?_ stepEq
    rintro store ⟨earlier, passed, rfl⟩
    exact ⟨earlier, passed.longer [event], rfl⟩

/-! ## The law -/

section Law

variable {call : LegacyRevise} {world next : Db} {expected : Int}
  {complete : ResolvedContextSelection} {now : Instant}

omit [IdentityHost] in
/-- A write that is applied ran the transaction of the store. -/
theorem LegacyRevise.write_of_applied
    (applied : call.advanceWrite world now expected complete = (.confirming, next)) :
    ∃ prepared result, call.write expected prepared complete.directIds now world =
      .ok (result, next) ∧ result.outcome = .applied := by
  rw [LegacyRevise.advanceWrite] at applied
  split at applied
  · cases applied
  · rename_i prepared _
    split at applied
    · cases applied
    · rename_i result _ ran
      split at applied
      · rename_i outcome
        cases applied
        exact ⟨prepared, result, ran, outcome⟩
      · cases applied
      · cases applied

omit [IdentityHost] in
/-- The contexts of a memory after an applied write, by what the call recalls. -/
theorem LegacyRevise.Recalls.listed_of_applied {passed : Db → Prop}
    (recalls : call.Recalls passed world expected complete.directIds)
    (applied : call.advanceWrite world now expected complete = (.confirming, next)) :
    ∃ seen selected, passed seen ∧ call.selection.directIds.head? = some selected ∧
      (∀ row ∈ world.listedMemberships call.id,
        (seen.visibleMembership call.principal row).isSome) ∧
      (next.listedMemberships call.id).map (·.contextId) =
        selected :: (((world.listedMemberships call.id).filter fun row =>
          row.ordinal != 0).map (·.contextId)).filter fun contextId => contextId != selected := by
  rcases recalls with ⟨listed, counted, selected, listedRead, countedRead, visible, chosen, same⟩
  obtain ⟨prepared, result, ran, outcome⟩ := write_of_applied applied
  obtain ⟨view, viewEq, revision⟩ := view_of_updateIfUnmodified outcome ran
  have sameListed := listedRead.membershipsOf viewEq revision
  have sameCounted := countedRead.membershipsOf viewEq revision
  have sameOrder : listed.listedMemberships call.id = world.listedMemberships call.id := by
    rw [Db.listedMemberships, Db.listedMemberships, sameListed]
  rw [Db.visibleMemberships, sameOrder] at visible same
  have whole : ((world.listedMemberships call.id).filterMap
      (listed.visibleMembership call.principal)).length =
      (world.listedMemberships call.id).length := by
    rw [← visible, sameCounted]
    exact (perm_orderBy _ _).length_eq.symm
  refine ⟨listed, selected, listedRead.passed, chosen, List.filterMap_length_eq_length.mp whole, ?_⟩
  obtain ⟨revisionAt, rows⟩ := membershipsOf_updateAuthorizedIfUnmodified ran outcome
  rw [Db.listedMemberships_of_rows rows, same]
  exact replacementContexts_of_rows whole

end Law

/-- A legacy revise that is applied leaves the memory in the selected context,
then in the contexts it was in right before, in their order, without the primary
one and the selected one.  So no membership behind the primary one is lost, and
the caller saw each membership that the memory had. -/
theorem legacy_revise_keeps_memberships {start : Db} {events : List ReviseEvent}
    {world : ReviseWorld} (reached : run reviseStep (ReviseWorld.opening start) events = some world)
    {index : Nat} {call : LegacyRevise} {expected : Int} {complete : ResolvedContextSelection}
    (writing : world.calls[index]? = some (call, .writing expected complete)) {now : Instant}
    {next : Db}
    (applied : call.advance world.db now (.writing expected complete) = (.confirming, next)) :
    (∃ selected, call.selection.directIds.head? = some selected ∧
      (next.listedMemberships call.id).map (·.contextId) =
        selected :: (((world.db.listedMemberships call.id).filter fun row =>
          row.ordinal != 0).map (·.contextId)).filter fun contextId => contextId != selected) ∧
    (∀ row ∈ world.db.membershipsOf call.id, row.ordinal ≠ 0 →
      ∃ kept ∈ next.membershipsOf call.id, kept.contextId = row.contextId) ∧
    ∃ seen, PassedStore start events seen ∧ ∀ row ∈ world.db.membershipsOf call.id,
      (seen.visibleMembership call.principal row).isSome := by
  have recalls : call.Recalls (PassedStore start events) world.db expected complete.directIds :=
    remembering_of_run reached index call _ writing
  obtain ⟨seen, selected, passed, chosen, visible, list⟩ := recalls.listed_of_applied applied
  refine ⟨⟨selected, chosen, list⟩, ?_, seen, passed, ?_⟩
  · intro row rowMem secondary
    have member : row.contextId ∈ (next.listedMemberships call.id).map (·.contextId) := by
      rw [list]
      by_cases same : row.contextId = selected
      · rw [same]
        exact List.mem_cons_self
      · refine List.mem_cons_of_mem _ (List.mem_filter.mpr ⟨?_, by simpa using same⟩)
        exact List.mem_map_of_mem (List.mem_filter.mpr
          ⟨mem_orderBy.mpr rowMem, by simpa using secondary⟩)
    obtain ⟨kept, keptMem, same⟩ := List.mem_map.mp member
    exact ⟨kept, mem_orderBy.mp keptMem, same⟩
  · intro row rowMem
    exact visible row (mem_orderBy.mpr rowMem)

/-- A legacy revise of a memory whose scope selected a third project. -/
def scopedRevise : LegacyRevise where
  id := ⟨7⟩
  principal := "owner"
  resolution := ⟨"gamma", false, .explicit, none, none⟩
  selection :=
    { resolution := { ContextResolution.default with
        direct := [⟨⟨3⟩, ContextKind.project, "gamma", "gamma"⟩] }
      directIds := [⟨3⟩]
      effectiveIds := [⟨3⟩]
      createdLegacyContext := none }
  changes := MemoryUpdate.default
  summary := none
  agentLabel := none
  prepare := .ok
  handle := ⟨3, none⟩

/-- Three projects, a memory in two of them, and a revise up to its write. -/
def scopedReviseRun : List ReviseEvent :=
  let memory := { Memory.plain ⟨7⟩ "owner" "a note" 0 with
    provenance := { Provenance.default with
      sourceAgent := some "owner"
      sourceConversation := some "alpha" } }
  let audit : ContextAuditDraft := ⟨"owner", "memory_context", none, none, none⟩
  let request : GovernedItem :=
    ⟨⟨memory, none⟩, none, ⟨⟨7⟩, some "alpha", none, none, none, [], 1⟩, [⟨1⟩, ⟨2⟩],
      ⟨.store, some "owner", 0, none⟩, audit⟩
  let stored := [.createContext (projectDraft ⟨1⟩ "alpha") audit,
    .createContext (projectDraft ⟨2⟩ "beta") audit, .createContext (projectDraft ⟨3⟩ "gamma") audit,
    .storeWithMetadataContexts request]
  stored.map (fun command => .store ⟨⟨3, none⟩, 0, command⟩) ++
    .start scopedRevise :: List.replicate 7 (.advance 0 0)

/-- Whether a call has been applied. -/
def RevisePhase.confirms : RevisePhase → Bool
  | .confirming => true
  | _ => false

omit [Host] [IdentityHost] in
theorem RevisePhase.eq_confirming {phase : RevisePhase} (confirms : phase.confirms = true) :
    phase = .confirming := by
  cases phase <;> first | rfl | cases confirms

omit [Host] [IdentityHost] in
theorem legacy_revise_keeps_memberships_gamma :
    ∃ world expected complete next,
      @run _ _ (@reviseStep asciiHost plainIdentities) (ReviseWorld.opening projectKindStore)
        scopedReviseRun = some world ∧
      world.calls[0]? = some (scopedRevise, .writing expected complete) ∧
      @LegacyRevise.advance asciiHost plainIdentities scopedRevise world.db 0
        (.writing expected complete) = (.confirming, next) ∧
      ∃ selected, scopedRevise.selection.directIds.head? = some selected ∧
        (next.listedMemberships ⟨7⟩).map (·.contextId) =
          selected :: (((world.db.listedMemberships ⟨7⟩).filter fun row =>
            row.ordinal != 0).map (·.contextId)).filter fun contextId => contextId != selected := by
  have ran : ∃ world, @run _ _ (@reviseStep asciiHost plainIdentities)
      (ReviseWorld.opening projectKindStore) scopedReviseRun = some world ∧
      ∃ expected complete, world.calls[0]? = some (scopedRevise, .writing expected complete) ∧
        (@LegacyRevise.advance asciiHost plainIdentities scopedRevise world.db 0
          (.writing expected complete)).1.confirms = true := by
    refine ⟨_, rfl, _, _, rfl, ?_⟩
    decide +kernel
  obtain ⟨world, reached, expected, complete, writing, confirms⟩ := ran
  have applied : @LegacyRevise.advance asciiHost plainIdentities scopedRevise world.db 0
      (.writing expected complete) = (.confirming, (@LegacyRevise.advance asciiHost plainIdentities
        scopedRevise world.db 0 (.writing expected complete)).2) :=
    Prod.ext (RevisePhase.eq_confirming confirms) rfl
  exact ⟨world, expected, complete, _, reached, writing, applied,
    (@legacy_revise_keeps_memberships asciiHost plainIdentities _ _ _ reached _ _ _ _ writing _ _
      applied).1⟩

end LocalHold
