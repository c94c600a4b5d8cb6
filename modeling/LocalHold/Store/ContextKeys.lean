import LocalHold.Store.ContextRuns

/-!
# Keys of contexts

The key of a context never changes.  Only the rollback of an implicitly created
context deletes one, and only where nothing refers to it.
-/

namespace LocalHold

open Relational Transition Transition.Txn

/-- The key of a stored context. -/
def Db.contextKey (db : Db) (id : ContextId) : Option String :=
  (db.contexts.find? id).map (·.context.key)

/-- Every context stays with its key. -/
def KeysGrow (db next : Db) : Prop :=
  ∀ id key, db.contextKey id = some key → next.contextKey id = some key

instance : Std.Refl KeysGrow :=
  ⟨fun _ _ _ stored => stored⟩

instance : IsTrans Db KeysGrow :=
  ⟨fun _ _ _ early late id key stored => late id key (early id key stored)⟩

theorem Db.contains_of_contextKey {db : Db} {id : ContextId} {key : String}
    (stored : db.contextKey id = some key) : db.contexts.contains id = true := by
  obtain ⟨row, found, _⟩ := Option.map_eq_some_iff.mp stored
  rw [Table.contains, found, Option.isSome_some]

theorem Db.exists_contextKey {db : Db} {id : ContextId}
    (stored : db.contexts.contains id = true) : ∃ key, db.contextKey id = some key := by
  obtain ⟨row, found⟩ := Option.isSome_iff_exists.mp stored
  exact ⟨row.context.key, by rw [Db.contextKey, found, Option.map_some]⟩

theorem LeavesContexts.keysGrow {α : Type} {body : StoreM α} (inner : LeavesContexts body) :
    Within KeysGrow body :=
  inner.mono fun db next same id key stored => by
    simp only [Keeps, Db.contextTables, Prod.mk.injEq] at same
    rw [Db.contextKey, same.1]
    exact stored

variable [Host]

theorem keysGrow_insertContextRow (context : ContextDefinition) :
    Within KeysGrow (insertContextRow context) := by
  intro db value next ran
  have ran := of_reads_bind ran
  obtain ⟨_, ran⟩ := of_require_bind ran
  obtain ⟨_, ran⟩ := of_require_bind ran
  have ran := of_reads_bind ran
  obtain ⟨_, ran⟩ := of_require_bind ran
  have ran := of_reads_bind ran
  obtain ⟨contexts, inserted, written⟩ := of_expect_bind ran
  cases writes_eq_ok.mp written
  have fresh := (Table.insert?_eq_some_iff.mp inserted).1
  intro id key stored
  have present := Db.contains_of_contextKey stored
  rw [Db.contextKey, Table.find?_insert? inserted]
  split
  · rename_i here
    rw [here, fresh] at present
    cases present
  · exact stored

omit [Host] in
theorem keysGrow_updateContext {id : ContextId} {change : ContextDefinition → ContextDefinition}
    {keepsId : ∀ context, (change context).id = context.id}
    (sameKey : ∀ context, (change context).key = context.key) :
    Within KeysGrow (updateContext id change keepsId) := by
  intro db value next ran
  have ran := of_reads_bind ran
  obtain ⟨_, _, written, done⟩ := bind_eq_ok.mp ran
  cases writes_eq_ok.mp written
  cases pure_eq_ok.mp done
  intro other key stored
  rw [Db.contextKey, Table.find?_update]
  split
  · rename_i here
    subst here
    obtain ⟨row, found, rfl⟩ := Option.map_eq_some_iff.mp stored
    rw [found, Option.map_some, Option.map_some]
    exact congrArg some (sameKey row.context)
  · exact stored

theorem keysGrow_createContext (draft : ContextCreateDraft) (audit : ContextAuditDraft)
    (now : Instant) : Within KeysGrow (createContext draft audit now) := by
  refine Within.bind (readsOnly_validateCreateDraft draft audit).within fun _ => ?_
  refine Within.bind (readsOnly_validateCreation draft).within fun _ => ?_
  refine Within.bind (keysGrow_insertContextRow _) fun _ => ?_
  apply LeavesContexts.keysGrow
  refine Within.bind (Within.forM fun _ _ => leavesContexts_insertAliasRow _) fun _ => ?_
  refine Within.bind (Within.forM fun _ _ => leavesContexts_insertIdentityRow _) fun _ => ?_
  refine Within.bind (Within.forM fun _ _ => leavesContexts_insertHintRow _) fun _ => ?_
  exact Within.bind (leavesContexts_insertContextAudit _ _ _ _) fun _ => Within.pure

theorem keysGrow_setContextParent (id : ContextId) (parentId : Option ContextId)
    (principal : String) (audit : ContextAuditDraft) (now : Instant) :
    Within KeysGrow (setContextParent id parentId principal audit now) := by
  refine Within.bind (readsOnly_validateAuditActor audit principal).within fun _ => ?_
  refine Within.bind (readsOnly_requireMutableOwnedContext id principal).within fun _ => ?_
  refine Within.bind Within.require fun _ => ?_
  refine Within.bind (Within.onSome fun _ _ => ?_) fun _ => ?_
  · refine Within.bind Within.reads fun _ => ?_
    refine Within.bind Within.require fun _ => ?_
    exact Within.bind Within.reads fun _ => Within.require
  · refine Within.bind (keysGrow_updateContext fun _ => rfl) fun _ => ?_
    exact Within.bind Within.require fun _ =>
      (leavesContexts_insertContextAudit _ _ _ _).keysGrow

theorem keysGrow_setContextLifecycle (id : ContextId) (lifecycle : ContextLifecycle)
    (principal : String) (audit : ContextAuditDraft) (now : Instant) :
    Within KeysGrow (setContextLifecycle id lifecycle principal audit now) := by
  refine Within.bind (readsOnly_validateAuditActor audit principal).within fun _ => ?_
  refine Within.bind (readsOnly_requireMutableOwnedContext id principal).within fun _ => ?_
  refine Within.bind (keysGrow_updateContext fun _ => rfl) fun _ => ?_
  exact Within.bind Within.require fun _ => (leavesContexts_insertContextAudit _ _ _ _).keysGrow

theorem keysGrow_updateContextDefinition (id : ContextId) (patch : ContextDefinitionPatch)
    (principal : String) (audit : ContextAuditDraft) (now : Instant) :
    Within KeysGrow (updateContextDefinition id patch principal audit now) := by
  refine Within.bind (readsOnly_validateAuditActor audit principal).within fun _ => ?_
  refine Within.bind (readsOnly_validateDefinitionPatchSurfaces patch).within fun _ => ?_
  refine Within.bind (readsOnly_uniqueSurfaces _ _).within fun _ => ?_
  refine Within.bind (readsOnly_validateUniqueIdentities _).within fun _ => ?_
  refine Within.bind (readsOnly_uniqueSurfaces _ _).within fun _ => ?_
  refine Within.bind (readsOnly_requireMutableOwnedContext id principal).within fun _ => ?_
  refine Within.bind (keysGrow_updateContext fun _ => rfl) fun _ => ?_
  apply LeavesContexts.keysGrow
  refine Within.bind (Within.writes fun _ => rfl) fun _ => ?_
  refine Within.bind (Within.forM fun _ _ => leavesContexts_insertAliasRow _) fun _ => ?_
  refine Within.bind (Within.writes fun _ => rfl) fun _ => ?_
  refine Within.bind (Within.forM fun _ _ => leavesContexts_insertIdentityRow _) fun _ => ?_
  refine Within.bind (Within.writes fun _ => rfl) fun _ => ?_
  refine Within.bind (Within.forM fun _ _ => leavesContexts_insertHintRow _) fun _ => ?_
  exact leavesContexts_insertContextAudit _ _ _ _

theorem keysGrow_upsertContextKind (kind : ContextKind) (displayName : String) (enabled : Bool)
    (principal : String) (audit : ContextAuditDraft) (now : Instant) :
    Within KeysGrow (upsertContextKind kind displayName enabled principal audit now) := by
  refine Within.bind (readsOnly_validateAuditActor audit principal).within fun _ => ?_
  refine Within.bind Within.require fun _ => ?_
  refine Within.bind Within.require fun _ => ?_
  refine Within.bind (Within.writes fun db id key stored => stored) fun _ => ?_
  exact (leavesContexts_insertContextAudit _ _ _ _).keysGrow

/-! ## The legacy scope adapter -/

theorem keysGrow_insertLegacyAdapterContext (context : ContextDefinition) (key : String)
    (now : Instant) : Within KeysGrow (insertLegacyAdapterContext context key now) := by
  refine Within.bind (keysGrow_insertContextRow context) fun _ => ?_
  exact Within.bind (leavesContexts_insertContextAudit _ _ _ _).keysGrow fun _ => Within.pure

theorem keysGrow_ensurePrivateLegacyScopeContext (newId : ContextId) (key : String)
    (displayName description : Option String) (principal : String) (now : Instant) :
    Within KeysGrow
      (ensurePrivateLegacyScopeContext newId key displayName description principal now) := by
  refine Within.bind Within.require fun _ => ?_
  refine Within.bind Within.reads fun existing => ?_
  cases existing with
  | some context =>
      refine Within.bind Within.require fun _ => ?_
      refine Within.bind Within.require fun _ => ?_
      refine Within.bind (Within.onSome fun _ _ => ?_) fun _ => Within.pure
      exact Within.bind (keysGrow_updateContext fun _ => rfl) fun _ => Within.pure
  | none =>
      refine Within.bind Within.reads fun _ => ?_
      exact Within.bind Within.require fun _ => keysGrow_insertLegacyAdapterContext _ _ _

theorem keysGrow_resolveOrCreatePrivateLegacyContext (newId : ContextId)
    (key principal : String) (now : Instant) :
    Within KeysGrow (resolveOrCreatePrivateLegacyContext newId key principal now) := by
  refine Within.bind (readsOnly_orConflict _).within fun _ => ?_
  refine Within.bind Within.require fun _ => ?_
  refine Within.bind Within.reads fun _ => ?_
  refine Within.bind Within.require fun _ => ?_
  refine Within.bind Within.reads fun existing => ?_
  cases existing with
  | some context => exact Within.bind Within.require fun _ => Within.pure
  | none =>
      refine Within.bind Within.reads fun visible => ?_
      match visible with
      | [] => exact keysGrow_insertLegacyAdapterContext _ _ _
      | [_] => exact Within.pure
      | _ :: _ :: _ => exact Within.fails

theorem keysGrow_registerScopeParent (newId contextId : ContextId) (scope : ScopeDefinition)
    (principal : String) (now : Instant) :
    Within KeysGrow (registerScopeParent newId contextId scope principal now) := by
  unfold registerScopeParent
  split
  · exact Within.bind (keysGrow_updateContext fun _ => rfl) fun _ => Within.pure
  · refine Within.bind (keysGrow_ensurePrivateLegacyScopeContext _ _ _ _ _ _) fun _ => ?_
    refine Within.bind Within.require fun _ => ?_
    refine Within.bind Within.reads fun _ => ?_
    refine Within.bind Within.require fun _ => ?_
    exact Within.bind (keysGrow_updateContext fun _ => rfl) fun _ => Within.pure

theorem keysGrow_registerRelatedScope (newId contextId : ContextId) (key principal : String)
    (now : Instant) :
    Within KeysGrow (registerRelatedScope newId contextId key principal now) := by
  refine Within.bind (keysGrow_ensurePrivateLegacyScopeContext _ _ _ _ _ _) fun _ => ?_
  apply LeavesContexts.keysGrow
  split
  · exact Within.pure
  · exact Within.writes fun _ => rfl

theorem keysGrow_registerLegacyScopeContext (newId : Nat → ContextId)
    (scope : ScopeDefinition) (principal : String) (now : Instant) :
    Within KeysGrow (registerLegacyScopeContext newId scope principal now) := by
  refine Within.bind (readsOnly_orConflict _).within fun _ => ?_
  refine Within.bind (keysGrow_ensurePrivateLegacyScopeContext _ _ _ _ _ _) fun _ => ?_
  refine Within.bind (keysGrow_registerScopeParent _ _ _ _ _) fun _ => ?_
  refine Within.bind (LeavesContexts.keysGrow (Within.writes fun _ => rfl)) fun _ => ?_
  refine Within.bind (Within.forM fun _ _ => (leavesContexts_insertAliasRow _).keysGrow)
    fun _ => ?_
  refine Within.bind (LeavesContexts.keysGrow (Within.writes fun _ => rfl)) fun _ => ?_
  refine Within.bind (Within.forM fun _ _ => (leavesContexts_insertHintRow _).keysGrow)
    fun _ => ?_
  refine Within.bind (LeavesContexts.keysGrow (Within.writes fun _ => rfl)) fun _ => ?_
  refine Within.bind (Within.forM fun _ _ => keysGrow_registerRelatedScope _ _ _ _ _)
    fun _ => ?_
  exact (leavesContexts_insertContextAudit _ _ _ _).keysGrow

end LocalHold
