import LocalHold.Server.LegacyResolution
import LocalHold.Store.ContextRuns

/-!
# Rolling back implicit contexts

A legacy scope without a context gets one before the memory is written.  When
the write fails, the rollback deletes the context again, in a later transaction.
It must neither take away what another client has attached in between nor leave
a trace of a context that nobody used.
-/

namespace LocalHold

open Relational Transition Transition.Txn

/-! ## References -/

/-- A row, or a policy in one, that refers to a context. -/
inductive Db.RefersTo (db : Db) (id : ContextId) : Prop where
  | membership (row : MembershipRow) (stored : row ∈ db.memoryContexts)
      (names : row.contextId = id)
  | child (row : ContextRow) (stored : row ∈ db.contexts)
      (names : row.context.parentId = some id)
  | grant (row : GrantRow) (stored : row ∈ db.contextGrants) (names : row.contextId = id)
  | relation (row : RelationRow) (stored : row ∈ db.contextRelations)
      (names : row.fromContextId = id ∨ row.toContextId = id)
  | surface (row : AliasRow) (stored : row ∈ db.contextAliases) (names : row.contextId = id)
  | identity (row : IdentityRow) (stored : row ∈ db.contextIdentities)
      (names : row.contextId = id)
  | hint (row : HintRow) (stored : row ∈ db.contextHints) (names : row.contextId = id)
  | anchorPolicy (row : ContextAnchorPolicyRecord) (stored : row ∈ db.anchorPolicies)
      (names : row.anchorContextId = id)
  | policyDefault (policy : ContextKindPolicy) (stored : policy ∈ db.storedPolicies)
      (names : policy.defaultContextId = some id)

/-- The audit rows about a context. -/
def Db.auditRowsOf (db : Db) (id : ContextId) : List ContextAuditRow :=
  db.contextAudit.filter fun row => row.contextId == some id

/-- A context that can be rolled back, in the terms of the tables. -/
structure Db.OnlyCreated (db : Db) (id : ContextId) (principal : String) : Prop where
  owned : ∃ row, db.contexts.find? id = some row ∧ row.context.ownerPrincipal = principal ∧
    row.context.kind = ContextKind.custom ∧ row.context.frozen = false
  unreferenced : ¬ db.RefersTo id
  /-- The only audit row about the context tells of its creation. -/
  audited : ∃ row, db.auditRowsOf id = [row] ∧ row.isImplicitCreation id principal = true

/-- The test of the rollback, read off the tables. -/
theorem Db.unreferencedLegacyContext_iff {db : Db} {id : ContextId} {principal : String} :
    db.unreferencedLegacyContext id principal = true ↔ db.OnlyCreated id principal := by
  simp only [Db.unreferencedLegacyContext, Bool.and_eq_true, Bool.not_eq_true', List.any_eq_false,
    beq_iff_eq, Bool.or_eq_true, Option.any_eq_true]
  constructor
  · rintro ⟨⟨⟨⟨⟨⟨⟨⟨⟨⟨⟨owned, memberships⟩, children⟩, grants⟩, relations⟩, surfaces⟩, identities⟩,
      hints⟩, anchors⟩, defaults⟩, single⟩, created⟩
    refine ⟨?_, ?_, ?_⟩
    · obtain ⟨row, found, ⟨owner, kind⟩, mutable⟩ := owned
      exact ⟨row, found, owner, kind, mutable⟩
    · intro refers
      cases refers with
      | membership row stored names => exact memberships row stored names
      | child row stored names => exact children row stored names
      | grant row stored names => exact grants row stored names
      | relation row stored names => exact relations row stored names
      | surface row stored names => exact surfaces row stored names
      | identity row stored names => exact identities row stored names
      | hint row stored names => exact hints row stored names
      | anchorPolicy row stored names => exact anchors row stored names
      | policyDefault policy stored names => exact defaults policy stored names
    · obtain ⟨row, singleton⟩ := List.length_eq_one_iff.mp single
      obtain ⟨creation, creationMem, isCreation⟩ := List.any_eq_true.mp created
      have about : creation ∈ db.auditRowsOf id := by
        simp only [ContextAuditRow.isImplicitCreation, Bool.and_eq_true] at isCreation
        exact List.mem_filter.mpr ⟨creationMem, isCreation.1.1.1⟩
      rw [Db.auditRowsOf, singleton, List.mem_singleton] at about
      exact ⟨row, singleton, about ▸ isCreation⟩
  · rintro ⟨⟨row, found, owner, kind, mutable⟩, unreferenced, creation, singleton, isCreation⟩
    refine ⟨⟨⟨⟨⟨⟨⟨⟨⟨⟨⟨⟨row, found, ⟨owner, kind⟩, mutable⟩, ?_⟩, ?_⟩, ?_⟩, ?_⟩, ?_⟩, ?_⟩, ?_⟩, ?_⟩, ?_⟩, ?_⟩, ?_⟩
    · exact fun row stored names => unreferenced (.membership row stored names)
    · exact fun row stored names => unreferenced (.child row stored names)
    · exact fun row stored names => unreferenced (.grant row stored names)
    · exact fun row stored names => unreferenced (.relation row stored names)
    · exact fun row stored names => unreferenced (.surface row stored names)
    · exact fun row stored names => unreferenced (.identity row stored names)
    · exact fun row stored names => unreferenced (.hint row stored names)
    · exact fun row stored names => unreferenced (.anchorPolicy row stored names)
    · exact fun policy stored names => unreferenced (.policyDefault policy stored names)
    · rw [show db.contextAudit.filter (fun row => row.contextId == some id) = [creation] from
        singleton]
      rfl
    · have about : creation ∈ db.auditRowsOf id := singleton ▸ List.mem_singleton_self creation
      exact List.any_eq_true.mpr ⟨creation, (List.mem_filter.mp about).1, isCreation⟩

/-! ## What a rollback removes -/

/-- The tables without a context and its creation record. -/
def Db.withoutContext (db : Db) (id : ContextId) : Db :=
  { db with
    contexts := db.contexts.delete id
    contextAudit := db.contextAudit.filter fun row => row.contextId != some id }

/-- Where only the creation is on record, the creation rows of a principal are all
rows about the context. -/
theorem Db.OnlyCreated.creationRows {db : Db} {id : ContextId} {principal : String}
    (only : db.OnlyCreated id principal) :
    (db.contextAudit.filter fun row => !row.isImplicitCreation id principal) =
      db.contextAudit.filter fun row => row.contextId != some id := by
  obtain ⟨creation, singleton, isCreation⟩ := only.audited
  apply List.filter_congr
  intro row rowMem
  rw [bne]
  congr 1
  cases about : row.contextId == some id with
  | true =>
      have rowAbout : row ∈ db.auditRowsOf id := List.mem_filter.mpr ⟨rowMem, about⟩
      rw [singleton, List.mem_singleton] at rowAbout
      rw [rowAbout]
      exact isCreation
  | false => simp [ContextAuditRow.isImplicitCreation, about]

/-- A rollback removes the context and its creation record, or nothing. -/
theorem rollback_ok_iff {db next : Db} {id : ContextId} {principal : String} {removed : Bool} :
    rollbackUnreferencedLegacyContext id principal db = .ok (removed, next) ↔
      (removed = true ∧ db.OnlyCreated id principal ∧ next = db.withoutContext id) ∨
        (removed = false ∧ ¬ db.OnlyCreated id principal ∧ next = db) := by
  cases removable : db.unreferencedLegacyContext id principal with
  | true =>
      have only := Db.unreferencedLegacyContext_iff.mp removable
      have ran : rollbackUnreferencedLegacyContext id principal db =
          .ok (true, db.withoutContext id) := by
        rw [Db.withoutContext, ← only.creationRows]
        unfold rollbackUnreferencedLegacyContext
        rw [bind_of_ok (show reads _ db = .ok (true, db) from by rw [reads, removable])]
        rfl
      rw [ran]
      simp only [Except.ok.injEq, Prod.mk.injEq, only, not_true_eq_false, true_and, false_and,
        and_false, or_false]
      exact ⟨fun same => ⟨same.1.symm, same.2.symm⟩, fun same => ⟨same.1.symm, same.2.symm⟩⟩
  | false =>
      have notOnly : ¬ db.OnlyCreated id principal := by
        rw [← Db.unreferencedLegacyContext_iff, removable]
        exact Bool.false_ne_true
      have ran : rollbackUnreferencedLegacyContext id principal db = .ok (false, db) := by
        unfold rollbackUnreferencedLegacyContext
        rw [bind_of_ok (show reads _ db = .ok (false, db) from by rw [reads, removable])]
        rfl
      rw [ran]
      simp only [Except.ok.injEq, Prod.mk.injEq, notOnly, not_false_eq_true, true_and, false_and,
        and_false, false_or]
      exact ⟨fun same => ⟨same.1.symm, same.2.symm⟩, fun same => ⟨same.1.symm, same.2.symm⟩⟩

/-- Nothing refers to a context that was rolled back. -/
theorem Db.OnlyCreated.forgotten {db : Db} {id : ContextId} {principal : String}
    (only : db.OnlyCreated id principal) :
    (db.withoutContext id).contexts.contains id = false ∧
      ¬ (db.withoutContext id).RefersTo id ∧ (db.withoutContext id).auditRowsOf id = [] := by
  refine ⟨?_, ?_, ?_⟩
  · simp [Db.withoutContext, Table.contains_delete]
  · intro refers
    apply only.unreferenced
    cases refers with
    | membership row stored names => exact .membership row stored names
    | child row stored names => exact .child row (Table.mem_deleteWhere_iff.mp stored).1 names
    | grant row stored names => exact .grant row stored names
    | relation row stored names => exact .relation row stored names
    | surface row stored names => exact .surface row stored names
    | identity row stored names => exact .identity row stored names
    | hint row stored names => exact .hint row stored names
    | anchorPolicy row stored names => exact .anchorPolicy row stored names
    | policyDefault policy stored names => exact .policyDefault policy stored names
  · simp [Db.withoutContext, Db.auditRowsOf, List.filter_filter]

/-! ## Creation -/

variable [Host]

/-- What the store demands of the context implied by a scope. -/
structure Db.ImplicitlyCreatable (db : Db) (id : ContextId) (principal scope : String) :
    Prop where
  principalStated : isBlank principal = false
  scopeStated : isBlank scope = false
  scopeBounded : scope.utf8ByteSize ≤ maxContextSurfaceLen
  nameStated : isBlank (legacyScopeDisplayName scope) = false
  nameBounded : (legacyScopeDisplayName scope).utf8ByteSize ≤ maxContextDisplayNameLen
  kindEnabled : db.kindIsEnabled ContextKind.custom = true
  keyFree : db.exactKeyOrAlias principal ContextKind.custom (normalizeContextKey scope) = false
  idFree : db.contexts.contains id = false

/-- The row of an implied context. -/
def implicitRow (id : ContextId) (principal scope : String) (now : Instant) : ContextRow :=
  (legacyContextDraft id principal scope).toRow now

/-- The audit row of an implied context. -/
def implicitAuditRow (id : ContextId) (principal scope : String) (now : Instant) :
    ContextAuditRow where
  actorPrincipal := principal
  action := "legacy_scope_context_created"
  contextId := some id
  memoryId := none
  timestamp := now
  details := some (.object [("scope_key", .string scope)])

/-- What an implicit creation writes. -/
structure Db.ImplicitlyCreated (db : Db) (id : ContextId) (principal scope : String)
    (now : Instant) (next : Db) : Prop where
  inserted : db.contexts.insert? (implicitRow id principal scope now) = some next.contexts
  written : next = { db with
    contexts := next.contexts
    contextAudit := db.contextAudit ++ [implicitAuditRow id principal scope now] }

theorem validateCreateDraft_legacy {db : Db} {id : ContextId} {principal scope : String}
    {result : Unit × Db}
    (ran : validateCreateDraft (legacyContextDraft id principal scope)
      (legacyContextAudit id principal scope) db = .ok result) :
    isBlank principal = false ∧
      (isBlank scope = false ∧ scope.utf8ByteSize ≤ maxContextSurfaceLen) ∧
      isBlank (legacyScopeDisplayName scope) = false ∧
      (legacyScopeDisplayName scope).utf8ByteSize ≤ maxContextDisplayNameLen := by
  obtain ⟨_, actor, ran⟩ := ReadsOnly.of_bind (readsOnly_validateAuditActor _ _) ran
  obtain ⟨stated, _⟩ := of_require_bind actor
  obtain ⟨key, ran⟩ := of_require_bind ran
  obtain ⟨name, _⟩ := of_require_bind ran
  simp only [Bool.and_eq_true, Bool.not_eq_true', decide_eq_true_eq] at stated key name
  simp only [legacyContextDraft] at stated key name
  exact ⟨stated.1, key.1, name⟩

/-- The fixed texts of an implied context are within their bound. -/
theorem legacyTexts_bounded {id : ContextId} {principal scope : String} :
    (((legacyContextDraft id principal scope).description.toList ++
      (legacyContextDraft id principal scope).guidance.toList).all fun value =>
        decide (value.utf8ByteSize ≤ maxContextDescriptionLen)) = true := by
  rfl

theorem validateCreateDraft_of_creatable {db : Db} {id : ContextId} {principal scope : String}
    (creatable : db.ImplicitlyCreatable id principal scope) :
    validateCreateDraft (legacyContextDraft id principal scope)
      (legacyContextAudit id principal scope) db = .ok ((), db) := by
  have actor : validateAuditActor (legacyContextAudit id principal scope)
      (legacyContextDraft id principal scope).ownerPrincipal db = .ok ((), db) := by
    unfold validateAuditActor
    rw [require_bind_of_holds (by
      simp [legacyContextAudit, legacyContextDraft, creatable.principalStated])]
    simp [legacyContextAudit, legacyContextDraft]
  unfold validateCreateDraft
  rw [bind_of_ok actor]
  rw [require_bind_of_holds (by
    simp [legacyContextDraft, creatable.scopeStated, creatable.scopeBounded])]
  rw [require_bind_of_holds (by
    simp [legacyContextDraft, creatable.nameStated, creatable.nameBounded])]
  rw [require_bind_of_holds legacyTexts_bounded]
  rw [require_bind_of_holds (by simp [legacyContextDraft, creatable.principalStated])]
  rw [require_bind_of_holds (by rfl), require_bind_of_holds (by rfl)]
  rw [require_bind_of_holds (by rfl), require_bind_of_holds (by rfl), require_bind_of_holds (by rfl)]
  rfl

/-- The store's checks on an implied context, in the creating transaction. -/
theorem validateCreation_legacy_iff {db : Db} {id : ContextId} {principal scope : String} :
    validateCreation (legacyContextDraft id principal scope) db = .ok ((), db) ↔
      db.kindIsEnabled ContextKind.custom = true ∧
        db.exactKeyOrAlias principal ContextKind.custom (normalizeContextKey scope) = false ∧
        db.contexts.contains id = false := by
  constructor
  · intro ran
    have ran := of_reads_bind ran
    obtain ⟨definition, found, ran⟩ := of_expect_bind ran
    obtain ⟨enabled, ran⟩ := of_require_bind ran
    have ran := of_reads_bind ran
    have ran := of_reads_bind ran
    obtain ⟨exact, ran⟩ := of_require_bind ran
    have ran := of_reads_bind ran
    obtain ⟨_, ran⟩ := of_require_bind ran
    have ran := of_reads_bind ran
    have unique := (require_eq_ok.mp ran).1
    refine ⟨?_, ?_, ?_⟩
    · rw [Db.kindIsEnabled, show db.contextKinds.find? ContextKind.custom = some definition from
        found]
      exact enabled
    · simpa [legacyContextDraft] using exact
    · rw [Table.contains_eq_false_iff]
      intro row rowMem same
      simp only [Bool.not_eq_true', List.any_eq_false] at unique
      exact unique row rowMem (by simp [same, legacyContextDraft])
  · rintro ⟨enabled, exact, idFree⟩
    rw [Db.kindIsEnabled] at enabled
    cases found : db.contextKinds.find? ContextKind.custom with
    | none =>
        rw [found] at enabled
        cases enabled
    | some definition =>
        rw [found] at enabled
        have unique : (db.contexts.rows.any fun row =>
            row.context.id == id || (row.context.ownerPrincipal == principal &&
              row.context.kind == ContextKind.custom &&
              row.normalizedKey == normalizeContextKey scope)) = false := by
          apply List.any_eq_false.mpr
          intro row rowMem same
          simp only [Bool.or_eq_true, Bool.and_eq_true, beq_iff_eq] at same
          rcases same with here | ⟨⟨owner, kind⟩, key⟩
          · exact Table.contains_eq_false_iff.mp idFree row rowMem here
          · refine List.any_eq_false.mp exact row rowMem ?_
            simp [owner, kind, key, Db.contextVisible]
        unfold validateCreation
        rw [bind_of_ok (show reads _ db = .ok (some definition, db) from by
          rw [reads, show db.contextKinds.find? (legacyContextDraft id principal scope).kind =
            some definition from found])]
        rw [expect_bind_of_some rfl, require_bind_of_holds enabled]
        rw [bind_of_ok (show onSome _ _ db = .ok ((), db) from rfl)]
        rw [bind_of_ok rfl, require_bind_of_holds (by simpa [legacyContextDraft] using exact)]
        rw [bind_of_ok rfl, bind_of_ok (show validateFuzzyConfirmation _ _ db = .ok ((), db) from rfl)]
        rw [bind_of_ok rfl]
        exact require_eq_ok.mpr ⟨by simpa [legacyContextDraft] using unique, rfl⟩

/-- A free identifier makes room for the row. -/
theorem Db.ImplicitlyCreatable.exists_created {db : Db} {id : ContextId}
    {principal scope : String} (creatable : db.ImplicitlyCreatable id principal scope)
    (now : Instant) : ∃ next, db.ImplicitlyCreated id principal scope now next := by
  cases inserted : db.contexts.insert? (implicitRow id principal scope now) with
  | none =>
      unfold Table.insert? at inserted
      rw [dif_pos (show db.contexts.contains (implicitRow id principal scope now).context.id = false
        from creatable.idFree)] at inserted
      cases inserted
  | some contexts =>
      exact ⟨{ db with
        contexts := contexts
        contextAudit := db.contextAudit ++ [implicitAuditRow id principal scope now] },
        inserted, rfl⟩

theorem Db.ImplicitlyCreated.unique {db : Db} {id : ContextId} {principal scope : String}
    {now : Instant} {first second : Db} (one : db.ImplicitlyCreated id principal scope now first)
    (other : db.ImplicitlyCreated id principal scope now second) : first = second := by
  rw [one.written, other.written, Option.some.inj (one.inserted.symm.trans other.inserted)]

/-- The insertion and the audit of an implied context, once the checks passed. -/
theorem insert_legacy_ok {db next : Db} {id : ContextId} {principal scope : String}
    {now : Instant} (creatable : db.ImplicitlyCreatable id principal scope)
    (created : db.ImplicitlyCreated id principal scope now next) :
    insertContextRow ((legacyContextDraft id principal scope).toDefinition now) db =
      .ok ((), { db with contexts := next.contexts }) := by
  have known : db.contextKinds.contains ContextKind.custom = true := by
    have enabled := creatable.kindEnabled
    rw [Db.kindIsEnabled] at enabled
    cases found : db.contextKinds.find? ContextKind.custom with
    | none =>
        rw [found] at enabled
        cases enabled
    | some definition => rw [Table.contains, found, Option.isSome_some]
  have keyFree : (!db.contexts.rows.any fun row =>
      row.context.ownerPrincipal == principal && row.context.kind == ContextKind.custom &&
        row.normalizedKey == normalizeContextKey scope) = true := by
    rw [Bool.not_eq_true', List.any_eq_false]
    intro row rowMem same
    simp only [Bool.and_eq_true, beq_iff_eq] at same
    obtain ⟨⟨owner, kind⟩, key⟩ := same
    refine List.any_eq_false.mp creatable.keyFree row rowMem ?_
    simp [owner, kind, key, Db.contextVisible]
  unfold insertContextRow
  rw [bind_of_ok (show reads _ db = .ok (true, db) from by
    rw [reads]
    simp only [legacyContextDraft, ContextCreateDraft.toDefinition, known, Option.all_none,
      Bool.and_true])]
  rw [require_bind_of_holds rfl, require_bind_of_holds (by rfl)]
  rw [bind_of_ok rfl, require_bind_of_holds (by exact keyFree)]
  rw [bind_of_ok (show reads _ db = .ok (some next.contexts, db) from by
    rw [reads]
    exact congrArg (fun value => Except.ok (value, db)) created.inserted)]
  rw [expect_bind_of_some rfl]
  rfl

/-- Creating the context of a scope succeeds exactly where the store's demands
are met, and then writes one row and its audit. -/
theorem createContext_legacy_iff {db next : Db} {id : ContextId} {principal scope : String}
    {now : Instant} {value : ContextDefinition} :
    createContext (legacyContextDraft id principal scope) (legacyContextAudit id principal scope)
        now db = .ok (value, next) ↔
      db.ImplicitlyCreatable id principal scope ∧
        value = (legacyContextDraft id principal scope).toDefinition now ∧
        db.ImplicitlyCreated id principal scope now next := by
  have runs : ∀ {created : Db}, db.ImplicitlyCreatable id principal scope →
      db.ImplicitlyCreated id principal scope now created →
      createContext (legacyContextDraft id principal scope)
        (legacyContextAudit id principal scope) now db =
        .ok ((legacyContextDraft id principal scope).toDefinition now, created) := by
    intro created creatable isCreated
    unfold createContext
    rw [bind_of_ok (validateCreateDraft_of_creatable creatable)]
    rw [bind_of_ok (validateCreation_legacy_iff.mpr
      ⟨creatable.kindEnabled, creatable.keyFree, creatable.idFree⟩)]
    rw [bind_of_ok (insert_legacy_ok creatable isCreated)]
    conv_rhs => rw [isCreated.written]
    rfl
  constructor
  · intro ran
    have creation := ran
    obtain ⟨_, drafted, ran⟩ := ReadsOnly.of_bind (readsOnly_validateCreateDraft _ _) ran
    obtain ⟨_, validated, _⟩ := ReadsOnly.of_bind (readsOnly_validateCreation _) ran
    obtain ⟨stated, ⟨scopeStated, scopeBounded⟩, nameStated, nameBounded⟩ :=
      validateCreateDraft_legacy drafted
    obtain ⟨enabled, keyFree, idFree⟩ := validateCreation_legacy_iff.mp validated
    have creatable : db.ImplicitlyCreatable id principal scope :=
      ⟨stated, scopeStated, scopeBounded, nameStated, nameBounded, enabled, keyFree, idFree⟩
    obtain ⟨created, isCreated⟩ := creatable.exists_created now
    have same := Except.ok.inj ((runs creatable isCreated).symm.trans creation)
    cases same
    exact ⟨creatable, rfl, isCreated⟩
  · rintro ⟨creatable, rfl, isCreated⟩
    exact runs creatable isCreated

/-! ## Creation followed by rollback -/

omit [Host] in
/-- An identifier that no row knows, as a newly drawn one is. -/
structure Db.Unused (db : Db) (id : ContextId) : Prop where
  absent : db.contexts.contains id = false
  unreferenced : ¬ db.RefersTo id
  unaudited : db.auditRowsOf id = []

/-- After its creation, only the creation is on record. -/
theorem Db.ImplicitlyCreated.onlyCreated {db next : Db} {id : ContextId}
    {principal scope : String} {now : Instant} (unused : db.Unused id)
    (created : db.ImplicitlyCreated id principal scope now next) :
    next.OnlyCreated id principal := by
  have written := created.written
  refine ⟨⟨implicitRow id principal scope now, ?_, rfl, rfl, rfl⟩, ?_,
    implicitAuditRow id principal scope now, ?_, ?_⟩
  · rw [Table.find?_insert? created.inserted]
    exact if_pos rfl
  · intro refers
    rw [written] at refers
    apply unused.unreferenced
    cases refers with
    | membership row stored names => exact .membership row stored names
    | child row stored names =>
        rcases (Table.mem_insert?_iff created.inserted).mp stored with old | rfl
        · exact .child row old names
        · cases names
    | grant row stored names => exact .grant row stored names
    | relation row stored names => exact .relation row stored names
    | surface row stored names => exact .surface row stored names
    | identity row stored names => exact .identity row stored names
    | hint row stored names => exact .hint row stored names
    | anchorPolicy row stored names => exact .anchorPolicy row stored names
    | policyDefault policy stored names => exact .policyDefault policy stored names
  · have earlier := unused.unaudited
    rw [Db.auditRowsOf] at earlier
    rw [written, Db.auditRowsOf, List.filter_append, earlier]
    simp [implicitAuditRow]
  · simp [ContextAuditRow.isImplicitCreation, implicitAuditRow]

/-- Taking the context away again gives back the tables. -/
theorem Db.ImplicitlyCreated.withoutContext {db next : Db} {id : ContextId}
    {principal scope : String} {now : Instant} (unused : db.Unused id)
    (created : db.ImplicitlyCreated id principal scope now next) :
    next.withoutContext id = db := by
  have contexts : next.contexts.delete id = db.contexts := Table.delete_insert? created.inserted
  have earlier : (db.contextAudit.filter fun row => row.contextId != some id) =
      db.contextAudit := by
    apply List.filter_eq_self.mpr
    intro row rowMem
    have unaudited := List.filter_eq_nil_iff.mp unused.unaudited row rowMem
    simpa using unaudited
  have audit : (next.contextAudit.filter fun row => row.contextId != some id) =
      db.contextAudit := by
    rw [created.written, List.filter_append, earlier]
    simp [implicitAuditRow]
  rw [Db.withoutContext, contexts, audit, created.written]

theorem rollback_of_created {db next : Db} {id : ContextId} {principal scope : String}
    {now : Instant} (unused : db.Unused id)
    (created : db.ImplicitlyCreated id principal scope now next) :
    rollbackUnreferencedLegacyContext id principal next = .ok (true, db) :=
  rollback_ok_iff.mpr
    (Or.inl ⟨rfl, created.onlyCreated unused, (created.withoutContext unused).symm⟩)

omit [Host] in
/-- The rollback of a context that was never created does nothing. -/
theorem rollback_of_absent {db : Db} {id : ContextId} {principal : String}
    (absent : db.contexts.contains id = false) :
    rollbackUnreferencedLegacyContext id principal db = .ok (false, db) := by
  refine rollback_ok_iff.mpr (Or.inr ⟨rfl, ?_, rfl⟩)
  intro only
  obtain ⟨row, found, _⟩ := only.owned
  rw [Table.contains, found] at absent
  cases absent

/-! ## The rollback as a step of the store -/

/-- The call that creates the context of a scope. -/
def implicitCreationCall (handle : StoreHandle) (now : Instant) (id : ContextId)
    (principal scope : String) : StoreCall :=
  ⟨handle, now,
    .createContext (legacyContextDraft id principal scope) (legacyContextAudit id principal scope)⟩

omit [Host] in
/-- The call that rolls an implied context back. -/
def rollbackCall (handle : StoreHandle) (now : Instant) (id : ContextId) (principal : String) :
    StoreCall :=
  ⟨handle, now, .rollbackUnreferencedLegacyContext id principal⟩

/-- A rollback step takes away a context that only its creation knows, or nothing. -/
theorem storeStep_rollbackCall {db next : Db} {handle : StoreHandle} {now : Instant}
    {id : ContextId} {principal : String}
    (stepEq : storeStep db (rollbackCall handle now id principal) = some next) :
    (db.OnlyCreated id principal ∧ next = db.withoutContext id) ∨ next = db := by
  have total : ∃ removed after,
      rollbackUnreferencedLegacyContext id principal db = .ok (removed, after) := by
    by_cases only : db.OnlyCreated id principal
    · exact ⟨true, _, rollback_ok_iff.mpr (Or.inl ⟨rfl, only, rfl⟩)⟩
    · exact ⟨false, _, rollback_ok_iff.mpr (Or.inr ⟨rfl, only, rfl⟩)⟩
  obtain ⟨removed, after, ran⟩ := total
  rw [storeStep_of_ok rfl rfl ran] at stepEq
  cases stepEq
  rcases rollback_ok_iff.mp ran with ⟨_, only, effect⟩ | ⟨_, _, same⟩
  · exact Or.inl ⟨only, effect⟩
  · exact Or.inr same

/-- Creating the context of a scope and rolling it back leaves no trace. -/
theorem run_implicitCreation_rollback {db : Db} {handle : StoreHandle}
    {created removed : Instant} {id : ContextId} {principal scope : String}
    (unused : db.Unused id) :
    run storeStep db [implicitCreationCall handle created id principal scope,
      rollbackCall handle removed id principal] = some db := by
  rw [run_cons_eq_some_iff]
  by_cases creatable : db.ImplicitlyCreatable id principal scope
  · obtain ⟨next, isCreated⟩ := creatable.exists_created created
    refine ⟨next, storeStep_of_ok rfl rfl
      (createContext_legacy_iff.mpr ⟨creatable, rfl, isCreated⟩), ?_⟩
    exact run_cons_eq_some_iff.mpr
      ⟨db, storeStep_of_ok rfl rfl (rollback_of_created unused isCreated), rfl⟩
  · refine ⟨db, storeStep_of_unchanged rfl rfl ?_, ?_⟩
    · intro value next ran
      exact absurd (createContext_legacy_iff.mp ran).1 creatable
    · exact run_cons_eq_some_iff.mpr
        ⟨db, storeStep_of_ok rfl rfl (rollback_of_absent unused.absent), rfl⟩

/-- The rollback of an implied context is safe among the calls of other clients.
Whatever they did before, it deletes a context only where nothing refers to it,
and then takes away that context and its creation record and nothing else.
Right after the creation it gives back every table. -/
theorem implicit_context_rollback_safe :
    (∀ (start before after : Db) (earlier : List StoreCall) (handle : StoreHandle)
        (now : Instant) (id : ContextId) (principal : String),
      run storeStep start earlier = some before →
      storeStep before (rollbackCall handle now id principal) = some after →
      after = before ∨
        (before.OnlyCreated id principal ∧ after = before.withoutContext id ∧
          after.contexts.contains id = false ∧ ¬ after.RefersTo id ∧
          after.auditRowsOf id = [])) ∧
    (∀ (db : Db) (handle : StoreHandle) (created removed : Instant) (id : ContextId)
        (principal scope : String), db.Unused id →
      run storeStep db [implicitCreationCall handle created id principal scope,
        rollbackCall handle removed id principal] = some db ∧
      ∀ context next,
        createContext (legacyContextDraft id principal scope)
          (legacyContextAudit id principal scope) created db = .ok (context, next) →
        next.contexts.contains id = true ∧
          rollbackUnreferencedLegacyContext id principal next = .ok (true, db)) := by
  constructor
  · intro start before after earlier handle now id principal _ stepEq
    rcases storeStep_rollbackCall stepEq with ⟨only, effect⟩ | same
    · refine Or.inr ⟨only, effect, ?_⟩
      rw [effect]
      exact only.forgotten
    · exact Or.inl same
  · intro db handle created removed id principal scope unused
    refine ⟨run_implicitCreation_rollback unused, ?_⟩
    intro context next ran
    obtain ⟨_, _, isCreated⟩ := createContext_legacy_iff.mp ran
    refine ⟨?_, rollback_of_created unused isCreated⟩
    rw [Table.contains_insert? isCreated.inserted]
    simp [implicitRow, ContextCreateDraft.toRow, ContextCreateDraft.toDefinition,
      legacyContextDraft]

/-- A store that knows the kind of implied contexts. -/
def customKindStore : Db :=
  { Db.empty 3 with
    contextKinds := Table.empty.upsert ⟨ContextKind.custom, "Custom", true, true, 0, 0⟩ }

omit [Host] in
theorem unused_customKindStore (id : ContextId) : customKindStore.Unused id := by
  refine ⟨rfl, ?_, rfl⟩
  intro refers
  cases refers <;> rename_i stored _ <;> exact absurd stored List.not_mem_nil

omit [Host] in
theorem implicit_context_rollback_safe_atlas :
    ∃ context created, @createContext asciiHost (@legacyContextDraft asciiHost ⟨1⟩ "owner" "atlas")
        (legacyContextAudit ⟨1⟩ "owner" "atlas") 0 customKindStore = .ok (context, created) ∧
      created.contexts.contains ⟨1⟩ = true ∧
      rollbackUnreferencedLegacyContext ⟨1⟩ "owner" created = .ok (true, customKindStore) := by
  have ran : ∃ context created,
      @createContext asciiHost (@legacyContextDraft asciiHost ⟨1⟩ "owner" "atlas")
        (legacyContextAudit ⟨1⟩ "owner" "atlas") 0 customKindStore = .ok (context, created) :=
    ⟨_, _, rfl⟩
  obtain ⟨context, created, ran⟩ := ran
  exact ⟨context, created, ran,
    ((@implicit_context_rollback_safe asciiHost).2 customKindStore ⟨3, none⟩ 0 0 ⟨1⟩ "owner"
      "atlas" (unused_customKindStore ⟨1⟩)).2 context created ran⟩

end LocalHold
