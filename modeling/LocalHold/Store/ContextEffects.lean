import LocalHold.Store.Footprints
import LocalHold.Store.Expansion

/-!
# What a command can do to the contexts

Every command changes the context tables by a sequence of four kinds of
changes: kinds are added, a context is inserted below a stored parent, the
mutable columns of a context are rewritten, or a childless context is deleted.
Invariants of the hierarchy are checked against these changes once.
-/

namespace LocalHold

open Relational Hierarchy Transition Transition.Txn

variable [Host]

/-- A new parent link that the writers allow: none, the old one, or a stored
context that does not lie below. -/
def Db.ParentAllowed (db : Db) (id : ContextId) (old new : Option ContextId) : Prop :=
  new = old ∨ ∀ parent, new = some parent →
    db.contexts.contains parent = true ∧ db.wouldCloseCycle id parent = false

/-- One change of the context tables.  Inserted rows meet a given condition. -/
inductive ContextChange (newRow : ContextRow → Prop) (db next : Db) : Prop where
  | kinds (contexts : next.contexts = db.contexts)
      (grown : ∀ kind, db.contextKinds.contains kind = true →
        next.contextKinds.contains kind = true)
  | insert (row : ContextRow) (meets : newRow row)
      (inserted : db.contexts.insert? row = some next.contexts)
      (known : db.contextKinds.contains row.context.kind = true)
      (parent : ∀ parent, row.context.parentId = some parent →
        db.contexts.contains parent = true)
      (normalized : row.normalizedKey = normalizeContextKey row.context.key)
      (sameKinds : next.contextKinds = db.contextKinds)
  | update (row : ContextRow) (context : ContextDefinition)
      (found : db.contexts.find? row.context.id = some row)
      (sameId : context.id = row.context.id) (sameKind : context.kind = row.context.kind)
      (sameKey : context.key = row.context.key)
      (parent : db.ParentAllowed row.context.id row.context.parentId context.parentId)
      (contexts : ∀ other, next.contexts.find? other =
        if other = row.context.id then some { row with context := context }
        else db.contexts.find? other)
      (sameKinds : next.contextKinds = db.contextKinds)
  | delete (id : ContextId)
      (childless : ∀ row ∈ db.contexts, row.context.parentId ≠ some id)
      (contexts : next.contexts = db.contexts.delete id)
      (sameKinds : next.contextKinds = db.contextKinds)

/-- A sequence of changes of the context tables. -/
def ContextsEvolve (newRow : ContextRow → Prop) : Db → Db → Prop :=
  Relation.ReflTransGen (ContextChange newRow)

instance (newRow : ContextRow → Prop) : Std.Refl (ContextsEvolve newRow) :=
  ⟨fun _ => Relation.ReflTransGen.refl⟩

instance (newRow : ContextRow → Prop) : IsTrans Db (ContextsEvolve newRow) :=
  ⟨fun _ _ _ early late => Relation.ReflTransGen.trans early late⟩

/-- What every change keeps, every sequence of changes keeps. -/
theorem ContextsEvolve.invariant {newRow : ContextRow → Prop} {holds : Db → Prop}
    (keeps : ∀ db next, holds db → ContextChange newRow db next → holds next) {db next : Db}
    (evolve : ContextsEvolve newRow db next) (held : holds db) : holds next := by
  induction evolve with
  | refl => exact held
  | tail _ change inductionHypothesis => exact keeps _ _ inductionHypothesis change

omit [Host] in
/-- The tables that the changes are about. -/
def Db.contextTables (db : Db) :=
  (db.contexts, db.contextKinds)

/-- A transaction that leaves contexts and kinds unchanged. -/
abbrev LeavesContexts {α : Type} (body : StoreM α) : Prop :=
  Within (Keeps Db.contextTables) body

variable {newRow : ContextRow → Prop}

theorem LeavesContexts.evolves {α : Type} {body : StoreM α} (inner : LeavesContexts body) :
    Within (ContextsEvolve newRow) body :=
  inner.mono fun db next same => by
    simp only [Keeps, Db.contextTables, Prod.mk.injEq] at same
    exact Relation.ReflTransGen.single
      (.kinds same.1 fun kind known => by rw [same.2]; exact known)

/-! ## Statements -/

theorem evolves_insertContextRow {context : ContextDefinition}
    (meets : newRow ⟨context, normalizeContextKey context.key⟩) :
    Within (ContextsEvolve newRow) (insertContextRow context) := by
  intro db value next ran
  have ran := of_reads_bind ran
  obtain ⟨parents, ran⟩ := of_require_bind ran
  obtain ⟨_, ran⟩ := of_require_bind ran
  have ran := of_reads_bind ran
  obtain ⟨_, ran⟩ := of_require_bind ran
  have ran := of_reads_bind ran
  obtain ⟨contexts, inserted, written⟩ := of_expect_bind ran
  cases writes_eq_ok.mp written
  rw [Bool.and_eq_true] at parents
  refine Relation.ReflTransGen.single (.insert _ meets inserted parents.1 ?_ rfl rfl)
  intro parent stated
  have stored := parents.2
  rw [show context.parentId = some parent from stated] at stored
  exact stored

/-- Rewriting a context evolves the contexts where its parent link may change so. -/
theorem evolve_updateContext {db next : Db} {id : ContextId}
    {change : ContextDefinition → ContextDefinition}
    {keepsId : ∀ context, (change context).id = context.id} {value : Bool}
    (ran : updateContext id change keepsId db = .ok (value, next))
    (sameKind : ∀ context, (change context).kind = context.kind)
    (sameKey : ∀ context, (change context).key = context.key)
    (parent : ∀ context, db.ParentAllowed id context.parentId (change context).parentId) :
    ContextsEvolve newRow db next := by
  have ran := of_reads_bind ran
  obtain ⟨_, middle, written, done⟩ := bind_eq_ok.mp ran
  cases writes_eq_ok.mp written
  cases pure_eq_ok.mp done
  cases found : db.contexts.find? id with
  | none =>
      refine Relation.ReflTransGen.single (.kinds ?_ fun _ known => known)
      exact @Table.update_eq_self _ _ _ _ _ _ _ (fun row => keepsId row.context) found
  | some row =>
      obtain ⟨rowMem, rfl⟩ := Table.find?_eq_some_iff.mp found
      refine Relation.ReflTransGen.single
        (.update row (change row.context) found (keepsId _) (sameKind _) (sameKey _) (parent _) ?_ rfl)
      intro other
      rw [Table.find?_update]
      by_cases same : other = row.context.id
      · rw [if_pos same, if_pos same, same, found, Option.map_some]
      · rw [if_neg same, if_neg same]

theorem evolves_updateContext {id : ContextId} {change : ContextDefinition → ContextDefinition}
    {keepsId : ∀ context, (change context).id = context.id}
    (sameKind : ∀ context, (change context).kind = context.kind)
    (sameKey : ∀ context, (change context).key = context.key)
    (sameParent : ∀ context, (change context).parentId = context.parentId) :
    Within (ContextsEvolve newRow) (updateContext id change keepsId) := by
  intro db value next ran
  exact evolve_updateContext ran sameKind sameKey fun context => Or.inl (sameParent context)

omit [Host] in
theorem leavesContexts_insertContextAudit (audit : ContextAuditDraft)
    (contextId : Option ContextId) (memoryId : Option MemoryId) (now : Instant) :
    LeavesContexts (insertContextAudit audit contextId memoryId now) :=
  Within.writes fun _ => rfl

omit [Host] in
theorem leavesContexts_insertAliasRow (row : AliasRow) : LeavesContexts (insertAliasRow row) := by
  refine Within.bind Within.reads fun _ => ?_
  refine Within.bind Within.require fun _ => ?_
  exact Within.reads_expect_writes fun _ _ _ => rfl

omit [Host] in
theorem leavesContexts_insertIdentityRow (row : IdentityRow) :
    LeavesContexts (insertIdentityRow row) := by
  refine Within.bind Within.reads fun _ => ?_
  refine Within.bind Within.require fun _ => ?_
  refine Within.bind Within.reads fun _ => ?_
  refine Within.bind Within.require fun _ => ?_
  exact Within.reads_expect_writes fun _ _ _ => rfl

omit [Host] in
theorem leavesContexts_insertHintRow (row : HintRow) : LeavesContexts (insertHintRow row) := by
  refine Within.bind Within.reads fun _ => ?_
  refine Within.bind Within.require fun _ => ?_
  exact Within.reads_expect_writes fun _ _ _ => rfl

omit [Host] in
theorem leavesContexts_insertGrantRow (row : GrantRow) : LeavesContexts (insertGrantRow row) := by
  refine Within.bind Within.reads fun _ => ?_
  refine Within.bind Within.require fun _ => ?_
  exact Within.reads_expect_writes fun _ _ _ => rfl

/-! ## Context commands -/

/-- The row that a draft becomes. -/
def ContextCreateDraft.toRow (draft : ContextCreateDraft) (now : Instant) : ContextRow :=
  ⟨draft.toDefinition now, normalizeContextKey draft.key⟩

theorem evolves_createContext {draft : ContextCreateDraft} {audit : ContextAuditDraft}
    {now : Instant} (meets : newRow (draft.toRow now)) :
    Within (ContextsEvolve newRow) (createContext draft audit now) := by
  refine Within.bind (readsOnly_validateCreateDraft draft audit).within fun _ => ?_
  refine Within.bind (readsOnly_validateCreation draft).within fun _ => ?_
  refine Within.bind (evolves_insertContextRow meets) fun _ => ?_
  apply LeavesContexts.evolves
  refine Within.bind (Within.forM fun _ _ => leavesContexts_insertAliasRow _) fun _ => ?_
  refine Within.bind (Within.forM fun _ _ => leavesContexts_insertIdentityRow _) fun _ => ?_
  refine Within.bind (Within.forM fun _ _ => leavesContexts_insertHintRow _) fun _ => ?_
  exact Within.bind (leavesContexts_insertContextAudit _ _ _ _) fun _ => Within.pure

omit [Host] in
/-- A usable context is stored. -/
theorem Db.contains_of_contextUseAllowed {db : Db} {id : ContextId} {principal : String}
    {requireActive : Bool} (usable : db.contextUseAllowed id principal requireActive = true) :
    db.contexts.contains id = true := by
  rw [Db.contextUseAllowed] at usable
  cases found : db.contexts.find? id with
  | none =>
      rw [found] at usable
      cases usable
  | some row => rw [Table.contains, found, Option.isSome_some]

theorem evolves_setContextParent (id : ContextId) (parentId : Option ContextId)
    (principal : String) (audit : ContextAuditDraft) (now : Instant) :
    Within (ContextsEvolve newRow) (setContextParent id parentId principal audit now) := by
  refine Within.bind (readsOnly_validateAuditActor audit principal).within fun _ => ?_
  refine Within.bind (readsOnly_requireMutableOwnedContext id principal).within fun _ => ?_
  refine Within.bind Within.require fun _ => ?_
  intro db value next ran
  obtain ⟨_, middle, checked, continued⟩ := bind_eq_ok.mp ran
  have allowed : middle = db ∧ ∀ parent, parentId = some parent →
      db.contexts.contains parent = true ∧ db.wouldCloseCycle id parent = false := by
    cases parentId with
    | none =>
        cases pure_eq_ok.mp checked
        exact ⟨rfl, fun _ absent => nomatch absent⟩
    | some parent =>
        have checked := of_reads_bind checked
        obtain ⟨usable, checked⟩ := of_require_bind checked
        have checked := of_reads_bind checked
        obtain ⟨noCycle, same⟩ := require_eq_ok.mp checked
        cases same
        refine ⟨rfl, ?_⟩
        intro other stated
        cases stated
        exact ⟨Db.contains_of_contextUseAllowed usable, by simpa using noCycle⟩
  obtain ⟨rfl, allowed⟩ := allowed
  obtain ⟨_, updated, updateRan, rest⟩ := bind_eq_ok.mp continued
  have evolved : ContextsEvolve newRow middle updated :=
    evolve_updateContext updateRan (fun _ => rfl) (fun _ => rfl) fun _ => Or.inr allowed
  refine IsTrans.trans _ _ _ evolved ((LeavesContexts.evolves ?_) rest)
  exact Within.bind Within.require fun _ => leavesContexts_insertContextAudit _ _ _ _

theorem evolves_setContextLifecycle (id : ContextId) (lifecycle : ContextLifecycle)
    (principal : String) (audit : ContextAuditDraft) (now : Instant) :
    Within (ContextsEvolve newRow) (setContextLifecycle id lifecycle principal audit now) := by
  refine Within.bind (readsOnly_validateAuditActor audit principal).within fun _ => ?_
  refine Within.bind (readsOnly_requireMutableOwnedContext id principal).within fun _ => ?_
  refine Within.bind (evolves_updateContext (fun _ => rfl) (fun _ => rfl) fun _ => rfl) fun _ => ?_
  apply LeavesContexts.evolves
  exact Within.bind Within.require fun _ => leavesContexts_insertContextAudit _ _ _ _

theorem leavesContexts_grantContextUse (id : ContextId) (grantee principal : String)
    (audit : ContextAuditDraft) (now : Instant) :
    LeavesContexts (grantContextUse id grantee principal audit now) := by
  refine Within.bind (readsOnly_validateAuditActor audit principal).within fun _ => ?_
  refine Within.bind (readsOnly_normalizeExplicitGrantee grantee).within fun _ => ?_
  refine Within.bind (readsOnly_requireMutableOwnedContext id principal).within fun _ => ?_
  exact Within.bind (Within.writes fun _ => rfl) fun _ =>
    leavesContexts_insertContextAudit _ _ _ _

theorem leavesContexts_revokeContextUse (id : ContextId) (grantee principal : String)
    (audit : ContextAuditDraft) (now : Instant) :
    LeavesContexts (revokeContextUse id grantee principal audit now) := by
  refine Within.bind (readsOnly_validateAuditActor audit principal).within fun _ => ?_
  refine Within.bind (readsOnly_normalizeExplicitGrantee grantee).within fun _ => ?_
  refine Within.bind (readsOnly_requireMutableOwnedContext id principal).within fun _ => ?_
  exact Within.bind (Within.writes fun _ => rfl) fun _ =>
    leavesContexts_insertContextAudit _ _ _ _

theorem leavesContexts_replaceContextGrants (id : ContextId) (grantees : List String)
    (principal : String) (audit : ContextAuditDraft) (now : Instant) :
    LeavesContexts (replaceContextGrants id grantees principal audit now) := by
  refine Within.bind (readsOnly_normalizeExplicitGrantees grantees).within fun _ => ?_
  refine Within.bind (readsOnly_validateAuditActor audit principal).within fun _ => ?_
  refine Within.bind (readsOnly_requireMutableOwnedContext id principal).within fun _ => ?_
  refine Within.bind (Within.writes fun _ => rfl) fun _ => ?_
  refine Within.bind (Within.forM fun _ _ => leavesContexts_insertGrantRow _) fun _ => ?_
  exact leavesContexts_insertContextAudit _ _ _ _

theorem evolves_updateContextDefinition (id : ContextId) (patch : ContextDefinitionPatch)
    (principal : String) (audit : ContextAuditDraft) (now : Instant) :
    Within (ContextsEvolve newRow) (updateContextDefinition id patch principal audit now) := by
  refine Within.bind (readsOnly_validateAuditActor audit principal).within fun _ => ?_
  refine Within.bind (readsOnly_validateDefinitionPatchSurfaces patch).within fun _ => ?_
  refine Within.bind (readsOnly_uniqueSurfaces _ _).within fun _ => ?_
  refine Within.bind (readsOnly_validateUniqueIdentities _).within fun _ => ?_
  refine Within.bind (readsOnly_uniqueSurfaces _ _).within fun _ => ?_
  refine Within.bind (readsOnly_requireMutableOwnedContext id principal).within fun _ => ?_
  refine Within.bind (evolves_updateContext (fun _ => rfl) (fun _ => rfl) fun _ => rfl) fun _ => ?_
  apply LeavesContexts.evolves
  refine Within.bind (Within.writes fun _ => rfl) fun _ => ?_
  refine Within.bind (Within.forM fun _ _ => leavesContexts_insertAliasRow _) fun _ => ?_
  refine Within.bind (Within.writes fun _ => rfl) fun _ => ?_
  refine Within.bind (Within.forM fun _ _ => leavesContexts_insertIdentityRow _) fun _ => ?_
  refine Within.bind (Within.writes fun _ => rfl) fun _ => ?_
  refine Within.bind (Within.forM fun _ _ => leavesContexts_insertHintRow _) fun _ => ?_
  exact leavesContexts_insertContextAudit _ _ _ _

theorem evolves_upsertContextKind (kind : ContextKind) (displayName : String) (enabled : Bool)
    (principal : String) (audit : ContextAuditDraft) (now : Instant) :
    Within (ContextsEvolve newRow)
      (upsertContextKind kind displayName enabled principal audit now) := by
  refine Within.bind (readsOnly_validateAuditActor audit principal).within fun _ => ?_
  refine Within.bind Within.require fun _ => ?_
  refine Within.bind Within.require fun _ => ?_
  refine Within.bind (Within.writes fun db => ?_) fun _ =>
    (leavesContexts_insertContextAudit _ _ _ _).evolves
  refine Relation.ReflTransGen.single (.kinds rfl ?_)
  intro other known
  rw [Table.contains, Table.find?_upsert]
  split
  · rfl
  · exact known

theorem leavesContexts_upsertContextKindPolicy (layer : ContextPolicyLayer)
    (policyPrincipal : String) (kind : ContextKind) (policy : ContextKindPolicy)
    (principal : String) (audit : ContextAuditDraft) (now : Instant) :
    LeavesContexts
      (upsertContextKindPolicy layer policyPrincipal kind policy principal audit now) := by
  refine Within.bind (readsOnly_validateAuditActor audit principal).within fun _ => ?_
  refine Within.bind (readsOnly_orConflict _).within fun _ => ?_
  refine Within.bind Within.require fun _ => ?_
  refine Within.bind Within.require fun _ => ?_
  refine Within.bind Within.require fun _ => ?_
  refine Within.bind (readsOnly_validatePolicyDefault _ _ _).within fun _ => ?_
  exact Within.bind (Within.writes fun _ => rfl) fun _ =>
    leavesContexts_insertContextAudit _ _ _ _

theorem leavesContexts_upsertContextAnchorPolicy (anchorId : ContextId)
    (policyPrincipal : String) (policy : ContextAnchorPolicy) (principal : String)
    (audit : ContextAuditDraft) (now : Instant) :
    LeavesContexts
      (upsertContextAnchorPolicy anchorId policyPrincipal policy principal audit now) := by
  refine Within.bind (readsOnly_validateAuditActor audit principal).within fun _ => ?_
  refine Within.bind Within.require fun _ => ?_
  refine Within.bind (readsOnly_orConflict _).within fun _ => ?_
  refine Within.bind Within.reads fun _ => ?_
  refine Within.bind Within.require fun _ => ?_
  refine Within.bind (Within.forM fun entry _ => ?_) fun _ => ?_
  · exact Within.bind Within.expect fun _ => (readsOnly_validatePolicyDefault _ _ _).within
  · exact Within.bind (Within.writes fun _ => rfl) fun _ =>
      leavesContexts_insertContextAudit _ _ _ _

omit [Host] in
/-- A context that may be rolled back has no children. -/
theorem Db.childless_of_unreferencedLegacyContext {db : Db} {id : ContextId} {principal : String}
    (removable : db.unreferencedLegacyContext id principal = true) :
    ∀ row ∈ db.contexts, row.context.parentId ≠ some id := by
  intro row rowMem child
  simp only [Db.unreferencedLegacyContext, Bool.and_eq_true, Bool.not_eq_true',
    List.any_eq_false] at removable
  exact removable.1.1.1.1.1.1.1.1.1.2 row rowMem (by simpa using child)

theorem evolves_rollbackUnreferencedLegacyContext (id : ContextId) (principal : String) :
    Within (ContextsEvolve newRow) (rollbackUnreferencedLegacyContext id principal) := by
  intro db value next ran
  have ran := of_reads_bind ran
  split at ran
  · rename_i removable
    obtain ⟨_, _, written, done⟩ := bind_eq_ok.mp ran
    cases writes_eq_ok.mp written
    cases pure_eq_ok.mp done
    exact Relation.ReflTransGen.single
      (.delete id (Db.childless_of_unreferencedLegacyContext removable) rfl rfl)
  · cases pure_eq_ok.mp ran
    exact Relation.ReflTransGen.refl

/-! ## The legacy scope adapter -/

/-- Custom rows whose key is not the reserved one may be inserted. -/
def AdmitsAdapter (newRow : ContextRow → Prop) : Prop :=
  ∀ row : ContextRow, row.normalizedKey ≠ unresolvedContextKey →
    row.context.kind = ContextKind.custom → newRow row

theorem evolves_insertLegacyAdapterContext {context : ContextDefinition} {key : String}
    {now : Instant} (meets : newRow ⟨context, normalizeContextKey context.key⟩) :
    Within (ContextsEvolve newRow) (insertLegacyAdapterContext context key now) := by
  refine Within.bind (evolves_insertContextRow meets) fun _ => ?_
  apply LeavesContexts.evolves
  exact Within.bind (leavesContexts_insertContextAudit _ _ _ _) fun _ => Within.pure

/-- The compatibility context of an unreserved key may be inserted. -/
theorem AdmitsAdapter.adapterRow (admits : AdmitsAdapter newRow) {key : String}
    (unreserved : normalizeContextKey key ≠ unresolvedContextKey) (id : ContextId)
    (displayName : String) (description : Option String) (principal : String) (now : Instant) :
    newRow ⟨legacyAdapterContext id key displayName description principal now,
      normalizeContextKey (legacyAdapterContext id key displayName description principal now).key⟩ := by
  refine admits _ ?_ rfl
  rw [show (legacyAdapterContext id key displayName description principal now).key = trim key from
    rfl, normalizeContextKey_trim]
  exact unreserved

theorem evolves_ensurePrivateLegacyScopeContext (admits : AdmitsAdapter newRow)
    (newId : ContextId) (key : String) (displayName description : Option String)
    (principal : String) (now : Instant) :
    Within (ContextsEvolve newRow)
      (ensurePrivateLegacyScopeContext newId key displayName description principal now) := by
  intro db value next ran
  obtain ⟨legacyKey, ran⟩ := of_require_bind ran
  rw [Bool.and_eq_true, bne_iff_ne, bne_iff_ne] at legacyKey
  have ran := of_reads_bind ran
  refine (?_ : Within (ContextsEvolve newRow) _) ran
  cases db.ownedCustomContext principal (normalizeContextKey key) with
  | some context =>
      refine Within.bind Within.require fun _ => ?_
      refine Within.bind Within.require fun _ => ?_
      refine Within.bind (Within.onSome fun _ _ => ?_) fun _ => Within.pure
      exact Within.bind (evolves_updateContext (fun _ => rfl) (fun _ => rfl) fun _ => rfl)
        fun _ => Within.pure
  | none =>
      refine Within.bind Within.reads fun _ => ?_
      refine Within.bind Within.require fun _ => ?_
      exact evolves_insertLegacyAdapterContext
        (admits.adapterRow legacyKey.2 _ _ _ _ _)

theorem evolves_resolveOrCreatePrivateLegacyContext (admits : AdmitsAdapter newRow)
    (newId : ContextId) (key principal : String) (now : Instant) :
    Within (ContextsEvolve newRow)
      (resolveOrCreatePrivateLegacyContext newId key principal now) := by
  refine Within.bind (readsOnly_orConflict _).within fun _ => ?_
  intro db value next ran
  obtain ⟨legacyKey, ran⟩ := of_require_bind ran
  rw [Bool.and_eq_true, bne_iff_ne, bne_iff_ne] at legacyKey
  refine (?_ : Within (ContextsEvolve newRow) _) ran
  refine Within.bind Within.reads fun _ => ?_
  refine Within.bind Within.require fun _ => ?_
  refine Within.bind Within.reads fun existing => ?_
  cases existing with
  | some context => exact Within.bind Within.require fun _ => Within.pure
  | none =>
      refine Within.bind Within.reads fun visible => ?_
      match visible with
      | [] =>
          exact evolves_insertLegacyAdapterContext
            (admits.adapterRow legacyKey.2 _ _ _ _ _)
      | [_] => exact Within.pure
      | _ :: _ :: _ => exact Within.fails

/-- The identifier of a compatibility context is stored. -/
theorem contains_of_ensurePrivateLegacyScopeContext {newId contextId : ContextId} {key : String}
    {displayName description : Option String} {principal : String} {now : Instant} {db next : Db}
    (ran : ensurePrivateLegacyScopeContext newId key displayName description principal now db =
      .ok (contextId, next)) : next.contexts.contains contextId = true := by
  obtain ⟨_, ran⟩ := of_require_bind ran
  have ran := of_reads_bind ran
  cases owned : db.ownedCustomContext principal (normalizeContextKey key) with
  | some context =>
      rw [owned] at ran
      obtain ⟨_, ran⟩ := of_require_bind ran
      obtain ⟨_, ran⟩ := of_require_bind ran
      obtain ⟨_, middle, updateRan, done⟩ := bind_eq_ok.mp ran
      cases pure_eq_ok.mp done
      obtain ⟨row, found, rfl⟩ := Option.map_eq_some_iff.mp owned
      have stored : db.contexts.contains row.context.id = true :=
        Table.contains_eq_true_iff.mpr ⟨row, List.mem_of_find?_eq_some found, rfl⟩
      cases displayName with
      | none =>
          cases pure_eq_ok.mp updateRan
          exact stored
      | some name =>
          obtain ⟨_, _, updateRan, done⟩ := bind_eq_ok.mp updateRan
          cases pure_eq_ok.mp done
          have updateRan := of_reads_bind updateRan
          obtain ⟨_, _, written, done⟩ := bind_eq_ok.mp updateRan
          cases writes_eq_ok.mp written
          cases pure_eq_ok.mp done
          rw [Table.update, Table.contains_updateWhere]
          exact stored
  | none =>
      rw [owned] at ran
      have ran := of_reads_bind ran
      obtain ⟨_, ran⟩ := of_require_bind ran
      obtain ⟨_, middle, insertRan, ran⟩ := bind_eq_ok.mp ran
      obtain ⟨_, _, audited, done⟩ := bind_eq_ok.mp ran
      cases writes_eq_ok.mp audited
      cases pure_eq_ok.mp done
      have insertRan := of_reads_bind insertRan
      obtain ⟨_, insertRan⟩ := of_require_bind insertRan
      obtain ⟨_, insertRan⟩ := of_require_bind insertRan
      have insertRan := of_reads_bind insertRan
      obtain ⟨_, insertRan⟩ := of_require_bind insertRan
      have insertRan := of_reads_bind insertRan
      obtain ⟨contexts, inserted, written⟩ := of_expect_bind insertRan
      cases writes_eq_ok.mp written
      simp [Table.contains_insert? inserted]

theorem evolves_registerScopeParent (admits : AdmitsAdapter newRow)
    (newId contextId : ContextId) (scope : ScopeDefinition) (principal : String)
    (now : Instant) :
    Within (ContextsEvolve newRow)
      (registerScopeParent newId contextId scope principal now) := by
  unfold registerScopeParent
  split
  · intro db value next ran
    obtain ⟨_, _, updateRan, done⟩ := bind_eq_ok.mp ran
    cases pure_eq_ok.mp done
    exact evolve_updateContext updateRan (fun _ => rfl) (fun _ => rfl)
      fun _ => Or.inr fun _ absent => nomatch absent
  · intro db value next ran
    obtain ⟨parentId, middle, ensured, ran⟩ := bind_eq_ok.mp ran
    have evolved : ContextsEvolve newRow db middle :=
      evolves_ensurePrivateLegacyScopeContext admits _ _ _ _ _ _ ensured
    obtain ⟨_, ran⟩ := of_require_bind ran
    have ran := of_reads_bind ran
    obtain ⟨noCycle, ran⟩ := of_require_bind ran
    obtain ⟨_, _, updateRan, done⟩ := bind_eq_ok.mp ran
    cases pure_eq_ok.mp done
    have linked : ContextsEvolve newRow middle next := by
      refine evolve_updateContext updateRan (fun _ => rfl) (fun _ => rfl) fun _ => Or.inr ?_
      intro parent stated
      cases stated
      exact ⟨contains_of_ensurePrivateLegacyScopeContext ensured, by simpa using noCycle⟩
    exact IsTrans.trans _ _ _ evolved linked

theorem evolves_registerRelatedScope (admits : AdmitsAdapter newRow)
    (newId contextId : ContextId) (key principal : String) (now : Instant) :
    Within (ContextsEvolve newRow) (registerRelatedScope newId contextId key principal now) := by
  refine Within.bind (evolves_ensurePrivateLegacyScopeContext admits _ _ _ _ _ _) fun _ => ?_
  apply LeavesContexts.evolves
  split
  · exact Within.pure
  · exact Within.writes fun _ => rfl

theorem evolves_registerLegacyScopeContext (admits : AdmitsAdapter newRow)
    (newId : Nat → ContextId) (scope : ScopeDefinition) (principal : String) (now : Instant) :
    Within (ContextsEvolve newRow) (registerLegacyScopeContext newId scope principal now) := by
  refine Within.bind (readsOnly_orConflict _).within fun _ => ?_
  refine Within.bind (evolves_ensurePrivateLegacyScopeContext admits _ _ _ _ _ _) fun _ => ?_
  refine Within.bind (evolves_registerScopeParent admits _ _ _ _ _) fun _ => ?_
  refine Within.bind (LeavesContexts.evolves (Within.writes fun _ => rfl)) fun _ => ?_
  refine Within.bind (Within.forM fun _ _ => (leavesContexts_insertAliasRow _).evolves)
    fun _ => ?_
  refine Within.bind (LeavesContexts.evolves (Within.writes fun _ => rfl)) fun _ => ?_
  refine Within.bind (Within.forM fun _ _ => (leavesContexts_insertHintRow _).evolves)
    fun _ => ?_
  refine Within.bind (LeavesContexts.evolves (Within.writes fun _ => rfl)) fun _ => ?_
  refine Within.bind (Within.forM fun _ _ => evolves_registerRelatedScope admits _ _ _ _ _)
    fun _ => ?_
  exact (leavesContexts_insertContextAudit _ _ _ _).evolves

end LocalHold
