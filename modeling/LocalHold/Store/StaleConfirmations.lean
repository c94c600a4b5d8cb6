import LocalHold.Store.Footprints
import LocalHold.Transition.Refusals

/-!
# Rejections for stale confirmations

The store looks for similar contexts again in the transaction that creates a context.
Its conflict for missing or stale confirmations comes from this revalidation alone, and
the checks in front of it have passed then.
-/

namespace LocalHold

open Relational Transition Transition.Txn

/-! ## The conflict -/

/-- The conflict of missing or stale confirmations. -/
def staleConfirmations : StoreError :=
  .conflict ("fuzzy context candidates changed; resolve candidates and submit a fresh " ++
    "confirm_distinct_from set")

/-- A conflict whose text begins with another letter is another one. -/
theorem conflict_ne_stale {text : String} (other : text.toList.head? ≠ some 'f') :
    StoreError.conflict text ≠ staleConfirmations := by
  intro same
  apply other
  rw [StoreError.conflict.inj same]
  rfl

theorem foreignKeyError_ne_stale : foreignKeyError ≠ staleConfirmations :=
  nofun

theorem uniqueError_ne_stale {columns : String} : uniqueError columns ≠ staleConfirmations :=
  nofun

variable [Host]

/-! ## Where it does not come from -/

omit [Host] in
theorem avoids_validateAuditActor (audit : ContextAuditDraft) (principal : String) :
    Avoids staleConfirmations (validateAuditActor audit principal) := by
  refine Avoids.bind (Avoids.require (conflict_ne_stale (by decide))) fun _ => ?_
  exact Avoids.require (conflict_ne_stale (by decide))

theorem avoids_validateIdentity (identity : ContextIdentity) :
    Avoids staleConfirmations (validateIdentity identity) := by
  refine Avoids.bind (Avoids.require (conflict_ne_stale ?_)) fun _ => ?_
  · simp [String.toList_append]
  refine Avoids.bind (Avoids.require (conflict_ne_stale (by decide))) fun _ => ?_
  refine Avoids.bind (Avoids.require (conflict_ne_stale ?_)) fun _ => ?_
  · simp [String.toList_append]
  refine Avoids.bind (Avoids.require (conflict_ne_stale (by decide))) fun _ => ?_
  exact Avoids.require (conflict_ne_stale (by decide))

theorem avoids_validateCreateDraft (draft : ContextCreateDraft) (audit : ContextAuditDraft) :
    Avoids staleConfirmations (validateCreateDraft draft audit) := by
  refine Avoids.bind (avoids_validateAuditActor audit draft.ownerPrincipal) fun _ => ?_
  iterate 9
    refine Avoids.bind (Avoids.require (conflict_ne_stale (by decide))) fun _ => ?_
  exact Avoids.forM avoids_validateIdentity

theorem avoids_insertContextRow (context : ContextDefinition) :
    Avoids staleConfirmations (insertContextRow context) := by
  refine Avoids.bind Avoids.reads fun _ => ?_
  refine Avoids.bind (Avoids.require foreignKeyError_ne_stale) fun _ => ?_
  refine Avoids.bind (Avoids.require nofun) fun _ => ?_
  refine Avoids.bind Avoids.reads fun _ => ?_
  refine Avoids.bind (Avoids.require uniqueError_ne_stale) fun _ => ?_
  refine Avoids.bind Avoids.reads fun _ => ?_
  exact Avoids.bind (Avoids.expect uniqueError_ne_stale) fun _ => Avoids.writes

omit [Host] in
theorem avoids_insertAliasRow (row : AliasRow) :
    Avoids staleConfirmations (insertAliasRow row) := by
  refine Avoids.bind Avoids.reads fun _ => ?_
  refine Avoids.bind (Avoids.require foreignKeyError_ne_stale) fun _ => ?_
  refine Avoids.bind Avoids.reads fun _ => ?_
  exact Avoids.bind (Avoids.expect uniqueError_ne_stale) fun _ => Avoids.writes

omit [Host] in
theorem avoids_insertIdentityRow (row : IdentityRow) :
    Avoids staleConfirmations (insertIdentityRow row) := by
  refine Avoids.bind Avoids.reads fun _ => ?_
  refine Avoids.bind (Avoids.require foreignKeyError_ne_stale) fun _ => ?_
  refine Avoids.bind Avoids.reads fun _ => ?_
  refine Avoids.bind (Avoids.require uniqueError_ne_stale) fun _ => ?_
  refine Avoids.bind Avoids.reads fun _ => ?_
  exact Avoids.bind (Avoids.expect uniqueError_ne_stale) fun _ => Avoids.writes

omit [Host] in
theorem avoids_insertHintRow (row : HintRow) :
    Avoids staleConfirmations (insertHintRow row) := by
  refine Avoids.bind Avoids.reads fun _ => ?_
  refine Avoids.bind (Avoids.require foreignKeyError_ne_stale) fun _ => ?_
  refine Avoids.bind Avoids.reads fun _ => ?_
  exact Avoids.bind (Avoids.expect uniqueError_ne_stale) fun _ => Avoids.writes

/-! ## Where it comes from -/

/-- The checks of the store in front of its revalidation let the draft pass. -/
structure Db.ReachesRevalidation (db : Db) (draft : ContextCreateDraft)
    (audit : ContextAuditDraft) : Prop where
  validated : validateCreateDraft draft audit db = .ok ((), db)
  kindOpen : ∃ definition, db.contextKinds.find? draft.kind = some definition ∧
    definition.enabled = true
  parentUsable : ∀ parentId ∈ draft.parentId,
    db.contextUseAllowed parentId draft.ownerPrincipal true = true
  unmatched : (db.exactKeyOrAlias draft.ownerPrincipal draft.kind draft.normalizedKey ||
    draft.identities.any (db.exactIdentity draft.ownerPrincipal draft.kind)) = false

/-- The revalidation of the store accepts the confirmations of a draft. -/
def Db.StoreConfirms (db : Db) (draft : ContextCreateDraft) : Prop :=
  validateFuzzyConfirmation draft (db.visibleActiveOfKind draft.ownerPrincipal draft.kind) db =
    .ok ((), db)

/-- The store rejects the draft for missing or stale confirmations. -/
def Db.RejectedAsStale (db : Db) (draft : ContextCreateDraft) (audit : ContextAuditDraft)
    (now : Instant) : Prop :=
  createContext draft audit now db = .error staleConfirmations

/-- The revalidation accepts the confirmations or raises its conflict. -/
theorem validateFuzzyConfirmation_stale_iff {draft : ContextCreateDraft} {db : Db} :
    validateFuzzyConfirmation draft (db.visibleActiveOfKind draft.ownerPrincipal draft.kind) db =
      .error staleConfirmations ↔ ¬db.StoreConfirms draft := by
  rw [Db.StoreConfirms, validateFuzzyConfirmation, require_eq_ok, and_iff_left rfl, require]
  split
  · next accepted =>
      rw [accepted]
      refine iff_of_false (fun failed => ?_) fun refused => refused rfl
      cases failed
  · next refused => exact iff_of_true rfl refused

/-- The check of the parent. -/
def checkParent (parentId : Option ContextId) (principal : String) : StoreM Unit :=
  onSome parentId fun parentId => do
    let usable ← reads fun db => db.contextUseAllowed parentId principal true
    require usable (.conflict ("parent context " ++ parentId.display ++
      " is unavailable, archived, or not granted"))

omit [Host] in
theorem checkParent_eq_ok {parentId : Option ContextId} {principal : String} {db : Db} :
    checkParent parentId principal db = .ok ((), db) ↔
      ∀ parent ∈ parentId, db.contextUseAllowed parent principal true = true := by
  cases parentId with
  | none => exact iff_of_true rfl nofun
  | some parent =>
      refine (require_eq_ok.trans (and_iff_left rfl)).trans ?_
      exact ⟨fun usable _ same => Option.mem_some.mp same ▸ usable, fun all => all parent rfl⟩

omit [Host] in
theorem readsOnly_checkParent (parentId : Option ContextId) (principal : String) :
    ReadsOnly (checkParent parentId principal) :=
  Within.onSome fun _ _ => Within.bind Within.reads fun _ => Within.require

omit [Host] in
theorem avoids_checkParent (parentId : Option ContextId) (principal : String) :
    Avoids staleConfirmations (checkParent parentId principal) := by
  refine Avoids.onSome fun _ => Avoids.bind Avoids.reads fun _ => Avoids.require ?_
  exact conflict_ne_stale (by simp [String.toList_append])

/-- Only the revalidation raises the conflict, behind the checks in front of it. -/
theorem validateCreation_stale_iff {draft : ContextCreateDraft} {db : Db} :
    validateCreation draft db = .error staleConfirmations ↔
      (∃ definition, db.contextKinds.find? draft.kind = some definition ∧
        definition.enabled = true) ∧
      (∀ parentId ∈ draft.parentId,
        db.contextUseAllowed parentId draft.ownerPrincipal true = true) ∧
      (db.exactKeyOrAlias draft.ownerPrincipal draft.kind draft.normalizedKey ||
        draft.identities.any (db.exactIdentity draft.ownerPrincipal draft.kind)) = false ∧
      ¬db.StoreConfirms draft := by
  rw [validateCreation]
  refine Avoids.reads_bind_eq_error.trans ((Avoids.expect_bind_eq_error ?_).trans ?_)
  · exact conflict_ne_stale (by simp [String.toList_append])
  rw [← exists_and_right]
  refine exists_congr fun definition => ?_
  rw [and_assoc]
  refine and_congr_right fun _ => (Avoids.require_bind_eq_error ?_).trans ?_
  · exact conflict_ne_stale (by simp [String.toList_append])
  refine and_congr_right fun _ => ?_
  refine (Avoids.readsOnly_bind_eq_error (avoids_checkParent _ _)
    (readsOnly_checkParent _ _)).trans (and_congr checkParent_eq_ok ?_)
  refine Avoids.reads_bind_eq_error.trans ((Avoids.require_bind_eq_error ?_).trans
    (and_congr ?_ (Avoids.reads_bind_eq_error.trans ?_)))
  · exact conflict_ne_stale (by decide)
  · rw [Bool.not_eq_true']
  refine (Avoids.bind_eq_error_of_rest fun _ => ?_).trans validateFuzzyConfirmation_stale_iff
  exact Avoids.bind Avoids.reads fun _ => Avoids.require (conflict_ne_stale (by decide))

/-- A draft is rejected for missing or stale confirmations just when the revalidation is
reached and does not accept them. -/
theorem Db.rejectedAsStale_iff {draft : ContextCreateDraft} {audit : ContextAuditDraft}
    {now : Instant} {db : Db} :
    db.RejectedAsStale draft audit now ↔
      db.ReachesRevalidation draft audit ∧ ¬db.StoreConfirms draft := by
  have inserts : ∀ _ : Unit, Avoids staleConfirmations (do
      insertContextRow (draft.toDefinition now)
      draft.aliases.forM fun entry => insertAliasRow ⟨draft.id, entry.1, entry.2, now⟩
      draft.identities.forM fun identity =>
        insertIdentityRow ⟨draft.id, draft.ownerPrincipal, draft.kind, identity, now⟩
      (normalizedSurfaces draft.resolverHints).forM fun entry =>
        insertHintRow ⟨draft.id, entry.1, entry.2, now⟩
      insertContextAudit audit (some draft.id) none now
      return draft.toDefinition now : StoreM ContextDefinition) := by
    intro _
    refine Avoids.bind (avoids_insertContextRow _) fun _ => ?_
    refine Avoids.bind (Avoids.forM fun _ => avoids_insertAliasRow _) fun _ => ?_
    refine Avoids.bind (Avoids.forM fun _ => avoids_insertIdentityRow _) fun _ => ?_
    refine Avoids.bind (Avoids.forM fun _ => avoids_insertHintRow _) fun _ => ?_
    exact Avoids.bind Avoids.writes fun _ => Avoids.pure
  rw [Db.RejectedAsStale, createContext, Avoids.readsOnly_bind_eq_error
    (avoids_validateCreateDraft draft audit) (readsOnly_validateCreateDraft draft audit),
    Avoids.bind_eq_error_of_rest inserts, validateCreation_stale_iff]
  constructor
  · rintro ⟨validated, kindOpen, parentUsable, unmatched, refused⟩
    exact ⟨⟨validated, kindOpen, parentUsable, unmatched⟩, refused⟩
  · rintro ⟨⟨validated, kindOpen, parentUsable, unmatched⟩, refused⟩
    exact ⟨validated, kindOpen, parentUsable, unmatched, refused⟩

end LocalHold
