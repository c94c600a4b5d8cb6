import LocalHold.Store.ContextEffects

/-!
# The two lookups of the legacy scope adapter

Registration and reassignment of legacy scopes each find or create the context
of a key.  Registration takes a custom context that the principal owns or
creates one; reassignment also takes the one visible context of the key.  The
lemmas here say once what each lookup can return and write.
-/

namespace LocalHold

open Relational Transition Transition.Txn

variable [Host]

/-! ## Inserting a context -/

/-- What a successful insertion of a context found and wrote. -/
theorem insertContextRow_ok {context : ContextDefinition} {db next : Db} {value : Unit}
    (ran : insertContextRow context db = .ok (value, next)) :
    ∃ contexts, db.contexts.insert? ⟨context, normalizeContextKey context.key⟩ = some contexts ∧
      (∀ row ∈ db.contexts, row.context.ownerPrincipal = context.ownerPrincipal →
        row.context.kind = context.kind →
          row.normalizedKey ≠ normalizeContextKey context.key) ∧
      next = { db with contexts := contexts } := by
  have ran := of_reads_bind ran
  obtain ⟨_, ran⟩ := of_require_bind ran
  obtain ⟨_, ran⟩ := of_require_bind ran
  have ran := of_reads_bind ran
  obtain ⟨keyFree, ran⟩ := of_require_bind ran
  have ran := of_reads_bind ran
  obtain ⟨contexts, inserted, written⟩ := of_expect_bind ran
  cases writes_eq_ok.mp written
  refine ⟨contexts, inserted, ?_, rfl⟩
  intro row rowMem owner kind key
  rw [Bool.not_eq_true', List.any_eq_false] at keyFree
  exact keyFree row rowMem (by simp [owner, kind, key])

/-- The row of the compatibility context of a key. -/
def legacyAdapterRow (id : ContextId) (key displayName : String) (description : Option String)
    (principal : String) (now : Instant) : ContextRow :=
  ⟨legacyAdapterContext id key displayName description principal now, normalizeContextKey key⟩

/-- A compatibility context is inserted, and its creation is audited. -/
theorem insertLegacyAdapterContext_ok {id made : ContextId} {key displayName : String}
    {description : Option String} {principal : String} {now : Instant} {db next : Db}
    (ran : insertLegacyAdapterContext
      (legacyAdapterContext id key displayName description principal now) key now db =
        .ok (made, next)) :
    made = id ∧ ∃ contexts,
      db.contexts.insert? (legacyAdapterRow id key displayName description principal now) =
        some contexts ∧
      next = { db with
        contexts := contexts
        contextAudit := next.contextAudit } := by
  obtain ⟨_, middle, inserted, ran⟩ := bind_eq_ok.mp ran
  obtain ⟨_, _, audited, done⟩ := bind_eq_ok.mp ran
  obtain ⟨contexts, insertedEq, _, rfl⟩ := insertContextRow_ok inserted
  cases writes_eq_ok.mp audited
  cases pure_eq_ok.mp done
  refine ⟨rfl, contexts, ?_, rfl⟩
  rw [legacyAdapterRow, ← normalizeContextKey_trim key]
  exact insertedEq

/-! ## Registration -/

omit [Host] in
/-- The identifier, owner, kind and key of every context, none of which is ever
rewritten. -/
def Db.contextNames (db : Db) : List (ContextId × String × ContextKind × String) :=
  db.contexts.rows.map fun row =>
    (row.context.id, row.context.ownerPrincipal, row.context.kind, row.normalizedKey)

omit [Host] in
theorem keepsNames_updateContext {id : ContextId} {change : ContextDefinition → ContextDefinition}
    {keepsId : ∀ context, (change context).id = context.id}
    (sameOwner : ∀ context, (change context).ownerPrincipal = context.ownerPrincipal)
    (sameKind : ∀ context, (change context).kind = context.kind) :
    Within (Keeps Db.contextNames) (updateContext id change keepsId) := by
  refine Within.bind Within.reads fun _ => ?_
  refine Within.bind (Within.writes fun db => ?_) fun _ => Within.pure
  simp only [Keeps, Db.contextNames, Table.update, Table.updateWhere, List.map_map]
  apply List.map_congr_left
  intro row _
  simp only [Function.comp_apply]
  split
  · rw [keepsId, sameOwner, sameKind]
  · rfl

omit [Host] in
/-- What an exact lookup by key reads: the names and lifecycles of the contexts,
the aliases and the grants. -/
def Db.locatorView (db : Db) :=
  (db.contexts.rows.map fun row =>
    ((row.context.id, row.context.ownerPrincipal, row.context.kind, row.normalizedKey),
      row.context.lifecycle), db.contextAliases, db.contextGrants)

omit [Host] in
theorem Db.contextNames_of_locatorView {db next : Db} (same : next.locatorView = db.locatorView) :
    next.contextNames = db.contextNames := by
  simp only [Db.locatorView, Prod.mk.injEq] at same
  have names := congrArg (List.map Prod.fst) same.1
  simp only [List.map_map] at names
  exact names

omit [Host] in
/-- A transaction that leaves what exact lookups read. -/
abbrev LeavesLocators {α : Type} (body : StoreM α) : Prop :=
  Within (Keeps Db.locatorView) body

omit [Host] in
theorem leavesLocators_updateContext {id : ContextId}
    {change : ContextDefinition → ContextDefinition}
    {keepsId : ∀ context, (change context).id = context.id}
    (sameOwner : ∀ context, (change context).ownerPrincipal = context.ownerPrincipal)
    (sameKind : ∀ context, (change context).kind = context.kind)
    (sameLifecycle : ∀ context, (change context).lifecycle = context.lifecycle) :
    LeavesLocators (updateContext id change keepsId) := by
  refine Within.bind Within.reads fun _ => ?_
  refine Within.bind (Within.writes fun db => ?_) fun _ => Within.pure
  simp only [Keeps, Db.locatorView, Table.update, Table.updateWhere, List.map_map, Prod.mk.injEq,
    and_true]
  apply List.map_congr_left
  intro row _
  simp only [Function.comp_apply]
  split
  · rw [keepsId, sameOwner, sameKind, sameLifecycle]
  · rfl

omit [Host] in
/-- The context of a key that registration refuses to shadow. -/
def Db.heldBy (db : Db) (row : ContextRow) (normalized : String) : Prop :=
  row.normalizedKey = normalized ∨
    ∃ entry ∈ db.contextAliases, entry.contextId = row.context.id ∧
      entry.normalizedAlias = normalized

omit [Host] in
/-- Store the stated name of a context with its description. -/
def Db.describe (db : Db) (id : ContextId) (displayName description : Option String)
    (now : Instant) : Db :=
  match displayName with
  | none => db
  | some name =>
      { db with
        contexts := db.contexts.update id fun row =>
          { row with
            context := { row.context with
              displayName := name, description := description, updatedAt := now } } }

omit [Host] in
theorem Db.locatorView_describe {db : Db} {id : ContextId}
    {displayName description : Option String} {now : Instant} :
    (db.describe id displayName description now).locatorView = db.locatorView := by
  cases displayName with
  | none => rfl
  | some name =>
      simp only [Db.describe, Db.locatorView, Table.update, Table.updateWhere, List.map_map,
        Prod.mk.injEq, and_true]
      apply List.map_congr_left
      intro row _
      simp only [Function.comp_apply]
      split <;> rfl

/-- The display name and the description that an inserted context gets. -/
def adapterRowOf (newId : ContextId) (key : String) (displayName description : Option String)
    (principal : String) (now : Instant) : ContextRow :=
  legacyAdapterRow newId key (displayName.getD ((lastSegment? key).getD key))
    (description.or (some privateCompatibilityDescription)) principal now

/-- `ensure_private_legacy_scope_context` describes the owned context of the key,
or inserts one. -/
theorem ensurePrivateLegacyScopeContext_cases {newId id : ContextId} {key principal : String}
    {displayName description : Option String} {now : Instant} {db next : Db}
    (ran : ensurePrivateLegacyScopeContext newId key displayName description principal now db =
      .ok (id, next)) :
    (normalizeContextKey key != "" && normalizeContextKey key != unresolvedContextKey) = true ∧
    ((∃ existing, db.ownedCustomContext principal (normalizeContextKey key) = some existing ∧
        existing.frozen = false ∧ existing.lifecycle = .active ∧ id = existing.id ∧
        next = db.describe existing.id displayName description now) ∨
      (db.ownedCustomContext principal (normalizeContextKey key) = none ∧
        (∀ row ∈ db.contexts, db.contextVisible row.context principal = true →
          ¬ db.heldBy row (normalizeContextKey key)) ∧
        id = newId ∧ ∃ contexts,
          db.contexts.insert? (adapterRowOf newId key displayName description principal now) =
            some contexts ∧
          next = { db with
            contexts := contexts
            contextAudit := next.contextAudit })) := by
  obtain ⟨named, ran⟩ := of_require_bind ran
  refine ⟨named, ?_⟩
  have ran := of_reads_bind ran
  cases owned : db.ownedCustomContext principal (normalizeContextKey key) with
  | some existing =>
      rw [owned] at ran
      obtain ⟨thawed, ran⟩ := of_require_bind ran
      obtain ⟨active, ran⟩ := of_require_bind ran
      obtain ⟨_, updated, updateRan, done⟩ := bind_eq_ok.mp ran
      cases pure_eq_ok.mp done
      refine Or.inl ⟨existing, rfl, by simpa using thawed, by simpa using active, rfl, ?_⟩
      cases displayName with
      | none =>
          cases pure_eq_ok.mp updateRan
          rfl
      | some name =>
          obtain ⟨_, _, updateRan, done⟩ := bind_eq_ok.mp updateRan
          cases pure_eq_ok.mp done
          have updateRan := of_reads_bind updateRan
          obtain ⟨_, _, written, done⟩ := bind_eq_ok.mp updateRan
          cases writes_eq_ok.mp written
          cases pure_eq_ok.mp done
          rfl
  | none =>
      rw [owned] at ran
      have ran := of_reads_bind ran
      obtain ⟨unclaimed, ran⟩ := of_require_bind ran
      obtain ⟨new, contexts, inserted, written⟩ := insertLegacyAdapterContext_ok ran
      refine Or.inr ⟨rfl, ?_, new, contexts, inserted, written⟩
      intro row rowMem visible held
      rw [Bool.not_eq_true', List.any_eq_false] at unclaimed
      refine unclaimed row rowMem ?_
      rw [visible, Bool.true_and, Bool.or_eq_true, beq_iff_eq, List.any_eq_true]
      rcases held with key | ⟨entry, entryMem, own, same⟩
      · exact Or.inl key
      · exact Or.inr ⟨entry, entryMem, by simp [own, same]⟩

/-- The context that a registration takes for a key. -/
inductive RegisteredContext (newId : ContextId) (key principal : String) (now : Instant)
    (db : Db) (id : ContextId) (next : Db) : Prop where
  | owned (existing : ContextDefinition)
      (found : db.ownedCustomContext principal (normalizeContextKey key) = some existing)
      (same : id = existing.id) (view : next.locatorView = db.locatorView)
  | created (unowned : db.ownedCustomContext principal (normalizeContextKey key) = none)
      (unclaimed : ∀ row ∈ db.contexts, db.contextVisible row.context principal = true →
        ¬ db.heldBy row (normalizeContextKey key))
      (displayName : String) (description : Option String) (contexts : _) (new : id = newId)
      (inserted : db.contexts.insert?
        (legacyAdapterRow newId key displayName description principal now) = some contexts)
      (written : next = { db with
        contexts := contexts
        contextAudit := next.contextAudit })

/-- What `ensure_private_legacy_scope_context` returns. -/
theorem ensurePrivateLegacyScopeContext_ok {newId id : ContextId} {key principal : String}
    {displayName description : Option String} {now : Instant} {db next : Db}
    (ran : ensurePrivateLegacyScopeContext newId key displayName description principal now db =
      .ok (id, next)) : RegisteredContext newId key principal now db id next := by
  obtain ⟨_, ⟨existing, owned, _, _, same, described⟩ |
    ⟨unowned, unclaimed, new, contexts, inserted, written⟩⟩ :=
      ensurePrivateLegacyScopeContext_cases ran
  · refine .owned existing owned same ?_
    rw [described]
    exact Db.locatorView_describe
  · exact .created unowned unclaimed _ _ contexts new inserted written

omit [Host] in
/-- An owned custom context is stored under its key. -/
theorem Db.ownedCustomContext_spec {db : Db} {principal normalized : String}
    {context : ContextDefinition}
    (owned : db.ownedCustomContext principal normalized = some context) :
    ∃ row ∈ db.contexts, row.context = context ∧ row.normalizedKey = normalized ∧
      context.ownerPrincipal = principal ∧ context.kind = ContextKind.custom := by
  obtain ⟨row, found, rfl⟩ := Option.map_eq_some_iff.mp owned
  have matched := List.find?_some found
  simp only [Bool.and_eq_true, beq_iff_eq] at matched
  exact ⟨row, List.mem_of_find?_eq_some found, rfl, matched.1.2, matched.1.1, matched.2⟩

/-! ## Reassignment -/

omit [Host] in
/-- The visible active contexts under a normalized key. -/
def Db.activeUnderKey (db : Db) (principal normalized : String) : List ContextId :=
  (db.contexts.select fun row =>
    row.normalizedKey == normalized && row.context.lifecycle == .active &&
      db.contextVisible row.context principal).map (·.context.id)

/-- The context that a reassignment takes for a key. -/
inductive ReassignTarget (newId : ContextId) (key principal : String) (now : Instant) (db : Db)
    (id : ContextId) (next : Db) : Prop where
  | owned (existing : ContextDefinition)
      (found : db.ownedCustomContext principal (normalizeContextKey key) = some existing)
      (active : existing.lifecycle = .active) (same : id = existing.id) (unchanged : next = db)
  | visible (unowned : db.ownedCustomContext principal (normalizeContextKey key) = none)
      (only : db.activeUnderKey principal (normalizeContextKey key) = [id]) (unchanged : next = db)
  | created (unowned : db.ownedCustomContext principal (normalizeContextKey key) = none)
      (missing : db.activeUnderKey principal (normalizeContextKey key) = [])
      (displayName : String) (description : Option String) (contexts : _) (new : id = newId)
      (inserted : db.contexts.insert?
        (legacyAdapterRow newId key displayName description principal now) = some contexts)
      (written : next = { db with
        contexts := contexts
        contextAudit := next.contextAudit })

/-- What `resolve_or_create_private_legacy_context` returns. -/
theorem resolveOrCreatePrivateLegacyContext_ok {newId id : ContextId} {key principal : String}
    {now : Instant} {db next : Db}
    (ran : resolveOrCreatePrivateLegacyContext newId key principal now db = .ok (id, next)) :
    db.kindIsEnabled ContextKind.custom = true ∧
      ReassignTarget newId key principal now db id next := by
  obtain ⟨_, _, ran⟩ := ReadsOnly.of_bind (readsOnly_orConflict _) ran
  obtain ⟨_, ran⟩ := of_require_bind ran
  have ran := of_reads_bind ran
  obtain ⟨enabled, ran⟩ := of_require_bind ran
  refine ⟨enabled, ?_⟩
  have ran := of_reads_bind ran
  cases owned : db.ownedCustomContext principal (normalizeContextKey key) with
  | some existing =>
      rw [owned] at ran
      obtain ⟨active, done⟩ := of_require_bind ran
      cases pure_eq_ok.mp done
      exact .owned existing owned (by simpa using active) rfl rfl
  | none =>
      rw [owned] at ran
      have ran := of_reads_bind ran
      cases listed : db.activeUnderKey principal (normalizeContextKey key) with
      | nil =>
          rw [show (db.contexts.select _).map _ = [] from listed] at ran
          obtain ⟨new, contexts, inserted, written⟩ := insertLegacyAdapterContext_ok ran
          exact .created owned listed _ _ contexts new inserted written
      | cons first rest =>
          rw [show (db.contexts.select _).map _ = first :: rest from listed] at ran
          cases rest with
          | nil =>
              cases pure_eq_ok.mp ran
              exact .visible owned listed rfl
          | cons _ _ => cases fails_eq_ok.mp ran

end LocalHold
