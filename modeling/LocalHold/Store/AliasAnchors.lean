import LocalHold.Store.MembershipEffects
import LocalHold.Store.LegacyAdapter

/-!
# Aliases belong to stored contexts

An alias is inserted only for a stored context, and only a context without
aliases is ever deleted.  A new identifier is therefore never the identifier of
an alias.
-/

namespace LocalHold

open Relational Transition Transition.Txn

/-- Every alias names a stored context. -/
def Db.AliasesAnchored (db : Db) : Prop :=
  ∀ entry ∈ db.contextAliases, db.contexts.contains entry.contextId = true

/-- A change after which aliases still name stored contexts. -/
def AnchorsAliases (db next : Db) : Prop :=
  db.AliasesAnchored → next.AliasesAnchored

instance : Std.Refl AnchorsAliases :=
  ⟨fun _ anchored => anchored⟩

instance : IsTrans Db AnchorsAliases :=
  ⟨fun _ _ _ early late anchored => late (early anchored)⟩

/-- The names of the contexts and the aliases. -/
def Db.aliasView (db : Db) :=
  (db.contextNames, db.contextAliases)

theorem Db.aliasView_of_locatorView {db next : Db} (same : next.locatorView = db.locatorView) :
    next.aliasView = db.aliasView := by
  have names := Db.contextNames_of_locatorView same
  simp only [Db.locatorView, Prod.mk.injEq] at same
  exact Prod.ext names same.2.1

theorem Db.contains_of_contextNames {db next : Db} (names : next.contextNames = db.contextNames)
    {id : ContextId} (stored : db.contexts.contains id = true) :
    next.contexts.contains id = true := by
  obtain ⟨row, rowMem, rfl⟩ := Table.contains_eq_true_iff.mp stored
  have named : (row.context.id, row.context.ownerPrincipal, row.context.kind, row.normalizedKey) ∈
      db.contextNames := List.mem_map_of_mem rowMem
  rw [← names] at named
  obtain ⟨other, otherMem, same⟩ := List.mem_map.mp named
  exact Table.contains_eq_true_iff.mpr ⟨other, otherMem, (Prod.mk.inj same).1⟩

theorem AnchorsAliases.of_view {db next : Db} (same : next.aliasView = db.aliasView) :
    AnchorsAliases db next := by
  obtain ⟨names, aliases⟩ := Prod.mk.inj same
  intro anchored entry entryMem
  rw [aliases] at entryMem
  exact Db.contains_of_contextNames names (anchored entry entryMem)

theorem anchorsAliases_of_view {α : Type} {body : StoreM α} (inner : Within (Keeps Db.aliasView) body) :
    Within AnchorsAliases body :=
  inner.mono fun _ _ same => AnchorsAliases.of_view same

theorem LeavesLocators.anchorsAliases {α : Type} {body : StoreM α} (inner : LeavesLocators body) :
    Within AnchorsAliases body :=
  inner.mono fun _ _ same => AnchorsAliases.of_view (Db.aliasView_of_locatorView same)

theorem anchorsAliases_insertAliasRow (row : AliasRow) :
    Within AnchorsAliases (insertAliasRow row) := by
  intro db value next ran anchored entry entryMem
  have ran := of_reads_bind ran
  obtain ⟨parent, ran⟩ := of_require_bind ran
  have ran := of_reads_bind ran
  obtain ⟨aliases, inserted, written⟩ := of_expect_bind ran
  cases writes_eq_ok.mp written
  rcases (Table.mem_insert?_iff inserted).mp entryMem with old | rfl
  · exact anchored entry old
  · exact parent

theorem anchorsAliases_deleteAliases (drop : AliasRow → Bool) :
    Within (ε := StoreError) AnchorsAliases (writes fun db =>
      { db with contextAliases := db.contextAliases.deleteWhere drop }) :=
  Within.writes fun _ anchored entry entryMem =>
    anchored entry (Table.mem_deleteWhere_iff.mp entryMem).1

theorem leavesLocators_insertIdentityRow (row : IdentityRow) :
    LeavesLocators (insertIdentityRow row) := by
  refine Within.bind Within.reads fun _ => ?_
  refine Within.bind Within.require fun _ => ?_
  refine Within.bind Within.reads fun _ => ?_
  refine Within.bind Within.require fun _ => ?_
  exact Within.reads_expect_writes fun _ _ _ => rfl

theorem leavesLocators_insertHintRow (row : HintRow) : LeavesLocators (insertHintRow row) := by
  refine Within.bind Within.reads fun _ => ?_
  refine Within.bind Within.require fun _ => ?_
  exact Within.reads_expect_writes fun _ _ _ => rfl

theorem leavesLocators_insertContextAudit (audit : ContextAuditDraft)
    (contextId : Option ContextId) (memoryId : Option MemoryId) (now : Instant) :
    LeavesLocators (insertContextAudit audit contextId memoryId now) :=
  Within.writes fun _ => rfl

variable [Host]

theorem anchorsAliases_insertContextRow (context : ContextDefinition) :
    Within AnchorsAliases (insertContextRow context) := by
  intro db value next ran anchored entry entryMem
  obtain ⟨contexts, inserted, _, rfl⟩ := insertContextRow_ok ran
  rw [Table.contains_insert? inserted, anchored entry entryMem, Bool.or_true]

/-! ## Commands on contexts -/

theorem anchorsAliases_createContext (draft : ContextCreateDraft) (audit : ContextAuditDraft)
    (now : Instant) : Within AnchorsAliases (createContext draft audit now) := by
  refine Within.bind (readsOnly_validateCreateDraft draft audit).within fun _ => ?_
  refine Within.bind (readsOnly_validateCreation draft).within fun _ => ?_
  refine Within.bind (anchorsAliases_insertContextRow _) fun _ => ?_
  refine Within.bind (Within.forM fun _ _ => anchorsAliases_insertAliasRow _) fun _ => ?_
  apply LeavesLocators.anchorsAliases
  refine Within.bind (Within.forM fun _ _ => leavesLocators_insertIdentityRow _) fun _ => ?_
  refine Within.bind (Within.forM fun _ _ => leavesLocators_insertHintRow _) fun _ => ?_
  exact Within.bind (leavesLocators_insertContextAudit _ _ _ _) fun _ => Within.pure

omit [Host] in
theorem anchorsAliases_updateContext {id : ContextId}
    {change : ContextDefinition → ContextDefinition}
    {keepsId : ∀ context, (change context).id = context.id}
    (sameOwner : ∀ context, (change context).ownerPrincipal = context.ownerPrincipal)
    (sameKind : ∀ context, (change context).kind = context.kind) :
    Within AnchorsAliases (updateContext id change keepsId) := by
  intro db value next ran
  have names := keepsNames_updateContext sameOwner sameKind ran
  have ran := of_reads_bind ran
  obtain ⟨_, _, written, done⟩ := bind_eq_ok.mp ran
  cases writes_eq_ok.mp written
  cases pure_eq_ok.mp done
  exact fun anchored entry entryMem => Db.contains_of_contextNames names (anchored entry entryMem)

theorem anchorsAliases_setContextParent (id : ContextId) (parentId : Option ContextId)
    (principal : String) (audit : ContextAuditDraft) (now : Instant) :
    Within AnchorsAliases (setContextParent id parentId principal audit now) := by
  refine Within.bind (readsOnly_validateAuditActor audit principal).within fun _ => ?_
  refine Within.bind (readsOnly_requireMutableOwnedContext id principal).within fun _ => ?_
  refine Within.bind Within.require fun _ => ?_
  refine Within.bind (Within.onSome fun _ _ => ?_) fun _ => ?_
  · refine Within.bind Within.reads fun _ => ?_
    refine Within.bind Within.require fun _ => ?_
    exact Within.bind Within.reads fun _ => Within.require
  · refine Within.bind (anchorsAliases_updateContext (fun _ => rfl) fun _ => rfl) fun _ => ?_
    exact Within.bind Within.require fun _ =>
      (leavesLocators_insertContextAudit _ _ _ _).anchorsAliases

theorem anchorsAliases_setContextLifecycle (id : ContextId) (lifecycle : ContextLifecycle)
    (principal : String) (audit : ContextAuditDraft) (now : Instant) :
    Within AnchorsAliases (setContextLifecycle id lifecycle principal audit now) := by
  refine Within.bind (readsOnly_validateAuditActor audit principal).within fun _ => ?_
  refine Within.bind (readsOnly_requireMutableOwnedContext id principal).within fun _ => ?_
  refine Within.bind (anchorsAliases_updateContext (fun _ => rfl) fun _ => rfl) fun _ => ?_
  exact Within.bind Within.require fun _ =>
    (leavesLocators_insertContextAudit _ _ _ _).anchorsAliases

theorem anchorsAliases_grantContextUse (id : ContextId) (grantee principal : String)
    (audit : ContextAuditDraft) (now : Instant) :
    Within AnchorsAliases (grantContextUse id grantee principal audit now) := by
  apply anchorsAliases_of_view
  refine Within.bind (readsOnly_validateAuditActor audit principal).within fun _ => ?_
  refine Within.bind (readsOnly_normalizeExplicitGrantee grantee).within fun _ => ?_
  refine Within.bind (readsOnly_requireMutableOwnedContext id principal).within fun _ => ?_
  exact Within.bind (Within.writes fun _ => rfl) fun _ => Within.writes fun _ => rfl

theorem anchorsAliases_revokeContextUse (id : ContextId) (grantee principal : String)
    (audit : ContextAuditDraft) (now : Instant) :
    Within AnchorsAliases (revokeContextUse id grantee principal audit now) := by
  apply anchorsAliases_of_view
  refine Within.bind (readsOnly_validateAuditActor audit principal).within fun _ => ?_
  refine Within.bind (readsOnly_normalizeExplicitGrantee grantee).within fun _ => ?_
  refine Within.bind (readsOnly_requireMutableOwnedContext id principal).within fun _ => ?_
  exact Within.bind (Within.writes fun _ => rfl) fun _ => Within.writes fun _ => rfl

theorem anchorsAliases_replaceContextGrants (id : ContextId) (grantees : List String)
    (principal : String) (audit : ContextAuditDraft) (now : Instant) :
    Within AnchorsAliases (replaceContextGrants id grantees principal audit now) := by
  apply anchorsAliases_of_view
  refine Within.bind (readsOnly_normalizeExplicitGrantees grantees).within fun _ => ?_
  refine Within.bind (readsOnly_validateAuditActor audit principal).within fun _ => ?_
  refine Within.bind (readsOnly_requireMutableOwnedContext id principal).within fun _ => ?_
  refine Within.bind (Within.writes fun _ => rfl) fun _ => ?_
  refine Within.bind (Within.forM fun _ _ => ?_) fun _ => Within.writes fun _ => rfl
  refine Within.bind Within.reads fun _ => ?_
  refine Within.bind Within.require fun _ => ?_
  exact Within.reads_expect_writes fun _ _ _ => rfl

theorem anchorsAliases_updateContextDefinition (id : ContextId) (patch : ContextDefinitionPatch)
    (principal : String) (audit : ContextAuditDraft) (now : Instant) :
    Within AnchorsAliases (updateContextDefinition id patch principal audit now) := by
  refine Within.bind (readsOnly_validateAuditActor audit principal).within fun _ => ?_
  refine Within.bind (readsOnly_validateDefinitionPatchSurfaces patch).within fun _ => ?_
  refine Within.bind (readsOnly_uniqueSurfaces _ _).within fun _ => ?_
  refine Within.bind (readsOnly_validateUniqueIdentities _).within fun _ => ?_
  refine Within.bind (readsOnly_uniqueSurfaces _ _).within fun _ => ?_
  refine Within.bind (readsOnly_requireMutableOwnedContext id principal).within fun _ => ?_
  refine Within.bind (anchorsAliases_updateContext (fun _ => rfl) fun _ => rfl) fun _ => ?_
  refine Within.bind (anchorsAliases_deleteAliases _) fun _ => ?_
  refine Within.bind (Within.forM fun _ _ => anchorsAliases_insertAliasRow _) fun _ => ?_
  apply LeavesLocators.anchorsAliases
  refine Within.bind (Within.writes fun _ => rfl) fun _ => ?_
  refine Within.bind (Within.forM fun _ _ => leavesLocators_insertIdentityRow _) fun _ => ?_
  refine Within.bind (Within.writes fun _ => rfl) fun _ => ?_
  refine Within.bind (Within.forM fun _ _ => leavesLocators_insertHintRow _) fun _ => ?_
  exact leavesLocators_insertContextAudit _ _ _ _

theorem anchorsAliases_upsertContextKind (kind : ContextKind) (displayName : String)
    (enabled : Bool) (principal : String) (audit : ContextAuditDraft) (now : Instant) :
    Within AnchorsAliases (upsertContextKind kind displayName enabled principal audit now) := by
  apply anchorsAliases_of_view
  refine Within.bind (readsOnly_validateAuditActor audit principal).within fun _ => ?_
  refine Within.bind Within.require fun _ => ?_
  refine Within.bind Within.require fun _ => ?_
  exact Within.bind (Within.writes fun _ => rfl) fun _ => Within.writes fun _ => rfl

theorem anchorsAliases_upsertContextKindPolicy (layer : ContextPolicyLayer)
    (policyPrincipal : String) (kind : ContextKind) (policy : ContextKindPolicy)
    (principal : String) (audit : ContextAuditDraft) (now : Instant) :
    Within AnchorsAliases
      (upsertContextKindPolicy layer policyPrincipal kind policy principal audit now) := by
  apply anchorsAliases_of_view
  refine Within.bind (readsOnly_validateAuditActor audit principal).within fun _ => ?_
  refine Within.bind (readsOnly_orConflict _).within fun _ => ?_
  refine Within.bind Within.require fun _ => ?_
  refine Within.bind Within.require fun _ => ?_
  refine Within.bind Within.require fun _ => ?_
  refine Within.bind (readsOnly_validatePolicyDefault _ _ _).within fun _ => ?_
  exact Within.bind (Within.writes fun _ => rfl) fun _ => Within.writes fun _ => rfl

theorem anchorsAliases_upsertContextAnchorPolicy (anchorId : ContextId)
    (policyPrincipal : String) (policy : ContextAnchorPolicy) (principal : String)
    (audit : ContextAuditDraft) (now : Instant) :
    Within AnchorsAliases
      (upsertContextAnchorPolicy anchorId policyPrincipal policy principal audit now) := by
  apply anchorsAliases_of_view
  refine Within.bind (readsOnly_validateAuditActor audit principal).within fun _ => ?_
  refine Within.bind Within.require fun _ => ?_
  refine Within.bind (readsOnly_orConflict _).within fun _ => ?_
  refine Within.bind Within.reads fun _ => ?_
  refine Within.bind Within.require fun _ => ?_
  refine Within.bind (Within.forM fun entry _ => ?_) fun _ => ?_
  · exact Within.bind Within.expect fun _ => (readsOnly_validatePolicyDefault _ _ _).within
  · exact Within.bind (Within.writes fun _ => rfl) fun _ => Within.writes fun _ => rfl

omit [Host] in
/-- A context that is rolled back has no alias. -/
theorem anchorsAliases_rollbackUnreferencedLegacyContext (id : ContextId) (principal : String) :
    Within AnchorsAliases (rollbackUnreferencedLegacyContext id principal) := by
  intro db value next ran anchored entry entryMem
  have ran := of_reads_bind ran
  split at ran
  · rename_i removable
    obtain ⟨_, _, written, done⟩ := bind_eq_ok.mp ran
    cases writes_eq_ok.mp written
    cases pure_eq_ok.mp done
    have other : entry.contextId ≠ id := by
      intro same
      simp only [Db.unreferencedLegacyContext, Bool.and_eq_true, Bool.not_eq_true',
        List.any_eq_false] at removable
      exact removable.1.1.1.1.1.1.2 entry entryMem (by simpa using same)
    rw [Table.contains_delete, anchored entry entryMem, Bool.and_true]
    exact decide_eq_true other
  · cases pure_eq_ok.mp ran
    exact anchored entry entryMem

/-! ## The legacy scope adapter -/

omit [Host] in
theorem anchorsAliases_insert {db next : Db} {row : ContextRow} {contexts : _}
    (inserted : db.contexts.insert? row = some contexts)
    (written : next = { db with
      contexts := contexts
      contextAudit := next.contextAudit }) : AnchorsAliases db next := by
  intro anchored entry entryMem
  rw [written] at entryMem ⊢
  rw [Table.contains_insert? inserted, anchored entry entryMem, Bool.or_true]

theorem anchorsAliases_ensurePrivateLegacyScopeContext (newId : ContextId) (key : String)
    (displayName description : Option String) (principal : String) (now : Instant) :
    Within AnchorsAliases
      (ensurePrivateLegacyScopeContext newId key displayName description principal now) := by
  intro db value next ran
  cases ensurePrivateLegacyScopeContext_ok ran with
  | owned _ _ _ view =>
      exact AnchorsAliases.of_view (Db.aliasView_of_locatorView view)
  | created _ _ _ _ _ _ inserted written => exact anchorsAliases_insert inserted written

theorem anchorsAliases_resolveOrCreatePrivateLegacyContext (newId : ContextId)
    (key principal : String) (now : Instant) :
    Within AnchorsAliases (resolveOrCreatePrivateLegacyContext newId key principal now) := by
  intro db value next ran
  cases (resolveOrCreatePrivateLegacyContext_ok ran).2 with
  | owned _ _ _ _ unchanged =>
      rw [unchanged]
      exact Std.Refl.refl db
  | visible _ _ unchanged =>
      rw [unchanged]
      exact Std.Refl.refl db
  | created _ _ _ _ _ _ inserted written => exact anchorsAliases_insert inserted written

theorem anchorsAliases_registerScopeParent (newId contextId : ContextId)
    (scope : ScopeDefinition) (principal : String) (now : Instant) :
    Within AnchorsAliases (registerScopeParent newId contextId scope principal now) := by
  unfold registerScopeParent
  split
  · exact Within.bind (anchorsAliases_updateContext (fun _ => rfl) fun _ => rfl) fun _ =>
      Within.pure
  · refine Within.bind (anchorsAliases_ensurePrivateLegacyScopeContext _ _ _ _ _ _) fun _ => ?_
    refine Within.bind Within.require fun _ => ?_
    refine Within.bind Within.reads fun _ => ?_
    refine Within.bind Within.require fun _ => ?_
    exact Within.bind (anchorsAliases_updateContext (fun _ => rfl) fun _ => rfl) fun _ =>
      Within.pure

theorem anchorsAliases_registerRelatedScope (newId contextId : ContextId)
    (key principal : String) (now : Instant) :
    Within AnchorsAliases (registerRelatedScope newId contextId key principal now) := by
  refine Within.bind (anchorsAliases_ensurePrivateLegacyScopeContext _ _ _ _ _ _) fun _ => ?_
  apply LeavesLocators.anchorsAliases
  split
  · exact Within.pure
  · exact Within.writes fun _ => rfl

theorem anchorsAliases_registerLegacyScopeContext (newId : Nat → ContextId)
    (scope : ScopeDefinition) (principal : String) (now : Instant) :
    Within AnchorsAliases (registerLegacyScopeContext newId scope principal now) := by
  refine Within.bind (readsOnly_orConflict _).within fun _ => ?_
  refine Within.bind (anchorsAliases_ensurePrivateLegacyScopeContext _ _ _ _ _ _) fun _ => ?_
  refine Within.bind (anchorsAliases_registerScopeParent _ _ _ _ _) fun _ => ?_
  refine Within.bind (anchorsAliases_deleteAliases _) fun _ => ?_
  refine Within.bind (Within.forM fun _ _ => anchorsAliases_insertAliasRow _) fun _ => ?_
  refine Within.bind (LeavesLocators.anchorsAliases (Within.writes fun _ => rfl)) fun _ => ?_
  refine Within.bind (Within.forM fun _ _ => (leavesLocators_insertHintRow _).anchorsAliases)
    fun _ => ?_
  refine Within.bind (LeavesLocators.anchorsAliases (Within.writes fun _ => rfl)) fun _ => ?_
  refine Within.bind (Within.forM fun _ _ => anchorsAliases_registerRelatedScope _ _ _ _ _)
    fun _ => ?_
  exact (leavesLocators_insertContextAudit _ _ _ _).anchorsAliases

omit [Host] in
theorem MembershipsEvolve.locatorView {target : MemoryId → ContextId → Prop} {db next : Db}
    (evolve : MembershipsEvolve target db next) : next.locatorView = db.locatorView := by
  have side := evolve.contextSide
  simp only [Db.contextSide, Prod.mk.injEq] at side
  simp only [Db.locatorView, side]

omit [Host] in
theorem leavesLocators_of_memberships {α : Type} {body : StoreM α}
    {target : MemoryId → ContextId → Prop} (inner : Within (MembershipsEvolve target) body) :
    LeavesLocators body :=
  inner.mono fun _ _ evolve => evolve.locatorView

omit [Host] in
theorem leavesLocators_reassignMemory (first : ContextId) (targetKey fromScope principal : String)
    (audit : Option AuditDraft) (now : Instant) (id : MemoryId) :
    LeavesLocators (reassignMemory first targetKey fromScope principal audit now id) :=
  leavesLocators_of_memberships
    (@evolves_reassignMemory (fun _ contextId => contextId = first) first id rfl _ _ _ _ _)

theorem anchorsAliases_applyReassignScope (newId : ContextId) (fromScope toScope : String)
    (origin : Option String) (principal : String) (audit : Option AuditDraft) (now : Instant) :
    Within AnchorsAliases
      (applyReassignScope newId fromScope toScope origin principal audit now) := by
  refine Within.bind Within.reads fun _ => ?_
  split
  · exact Within.pure
  · refine Within.bind (anchorsAliases_resolveOrCreatePrivateLegacyContext _ _ _ _) fun _ => ?_
    refine Within.bind Within.reads fun _ => ?_
    refine Within.bind Within.expect fun _ => ?_
    refine Within.bind (Within.forM fun _ _ => ?_) fun _ => Within.pure
    exact (leavesLocators_reassignMemory _ _ _ _ _ _ _).anchorsAliases

/-! ## Runs -/

theorem anchorsAliases_body {handle : StoreHandle} {now : Instant} (command : StoreCommand) :
    Within AnchorsAliases (command.body handle now) := by
  cases writes : command.writesContexts with
  | false =>
      exact (leavesLocators_of_memberships (@evolves_memberships_body (fun _ _ => False) _ _ _ _
        writes)).anchorsAliases
  | true =>
      cases command with
      | registerScope newId scope principal =>
          exact anchorsAliases_registerLegacyScopeContext _ _ _ _
      | reassignScope newId fromScope toScope origin principal audit =>
          exact within_discard (anchorsAliases_applyReassignScope _ _ _ _ _ _ _)
      | createContext draft audit =>
          exact within_discard (anchorsAliases_createContext _ _ _)
      | setContextParent id parentId principal audit =>
          exact anchorsAliases_setContextParent _ _ _ _ _
      | setContextLifecycle id lifecycle principal audit =>
          exact anchorsAliases_setContextLifecycle _ _ _ _ _
      | grantContextUse id grantee principal audit =>
          exact anchorsAliases_grantContextUse _ _ _ _ _
      | revokeContextUse id grantee principal audit =>
          exact anchorsAliases_revokeContextUse _ _ _ _ _
      | replaceContextGrants id grantees principal audit =>
          exact anchorsAliases_replaceContextGrants _ _ _ _ _
      | updateContextDefinition id patch principal audit =>
          exact anchorsAliases_updateContextDefinition _ _ _ _ _
      | upsertContextKind kind displayName enabled principal audit =>
          exact anchorsAliases_upsertContextKind _ _ _ _ _ _
      | upsertContextKindPolicy layer policyPrincipal kind policy principal audit =>
          exact anchorsAliases_upsertContextKindPolicy _ _ _ _ _ _ _
      | upsertContextAnchorPolicy anchorId policyPrincipal policy principal audit =>
          exact anchorsAliases_upsertContextAnchorPolicy _ _ _ _ _ _
      | rollbackUnreferencedLegacyContext id principal =>
          exact within_discard (anchorsAliases_rollbackUnreferencedLegacyContext _ _)
      | _ => cases writes

/-- Every run keeps aliases with their contexts. -/
theorem aliasesAnchored_run {start final : Db} {calls : List StoreCall}
    (anchored : start.AliasesAnchored) (runEq : run storeStep start calls = some final) :
    final.AliasesAnchored := by
  refine run_invariant (fun db call next held stepEq => ?_) anchored runEq
  exact storeStep_within (anchorsAliases_body call.command) stepEq held

end LocalHold
