import LocalHold.Store.Acyclic
import LocalHold.Store.MembershipEffects
import LocalHold.Store.LegacyAdapter

/-!
# Disabled kinds

A disabled kind stays stored, but no context of it should be created and no
memory should join one of its contexts.  Every command keeps this except two
adapters of legacy scopes: registration creates custom contexts without looking
at the kind, and reassignment takes the one visible context of its target key
whatever its kind is.
-/

namespace LocalHold

open Relational Transition Transition.Txn

/-! ## The property of a step -/

/-- Whether a kind is stored and disabled. -/
def Db.kindIsDisabled (db : Db) (kind : ContextKind) : Bool :=
  (db.contextKinds.find? kind).any fun definition => !definition.enabled

/-- A step keeps the disabled kinds closed: the contexts it creates and the
contexts that memories join are of kinds that were not disabled before it. -/
structure DisabledKindsClosed (db next : Db) : Prop where
  created : ∀ row ∈ next.contexts, db.contexts.contains row.context.id = false →
    db.kindIsDisabled row.context.kind = false
  joined : ∀ row ∈ next.memoryContexts,
    db.memoryContexts.contains (row.memoryId, row.contextId) = false →
      ∃ context, next.contexts.find? row.contextId = some context ∧
        db.kindIsDisabled context.context.kind = false

instance : Std.Refl DisabledKindsClosed where
  refl _ :=
    { created := fun row rowMem absent =>
        absurd rfl (Table.contains_eq_false_iff.mp absent row rowMem)
      joined := fun row rowMem absent =>
        absurd rfl (Table.contains_eq_false_iff.mp absent row rowMem) }

theorem Db.kindIsDisabled_of_enabled {db : Db} {kind : ContextKind}
    (enabled : db.kindIsEnabled kind = true) : db.kindIsDisabled kind = false := by
  unfold Db.kindIsEnabled at enabled
  unfold Db.kindIsDisabled
  cases found : db.contextKinds.find? kind with
  | none => rfl
  | some definition =>
      rw [found] at enabled
      simpa using enabled

/-- A usable context is of an enabled kind. -/
theorem Db.enabled_of_contextUseAllowed {db : Db} {id : ContextId} {principal : String}
    {active : Bool} (usable : db.contextUseAllowed id principal active = true) :
    ∃ row, db.contexts.find? id = some row ∧ db.kindIsEnabled row.context.kind = true := by
  unfold Db.contextUseAllowed at usable
  cases found : db.contexts.find? id with
  | none =>
      rw [found] at usable
      cases usable
  | some row =>
      rw [found] at usable
      simp only [Bool.and_eq_true] at usable
      exact ⟨row, rfl, usable.1.1⟩

/-! ## Created contexts -/

variable [Host]

/-- A context after a change was there before, or its kind may be created. -/
theorem ContextsEvolve.created {opens : ContextKind → Prop} {db next : Db}
    (evolve : ContextsEvolve (fun row => opens row.context.kind) db next) :
    ∀ row ∈ next.contexts,
      db.contexts.contains row.context.id = true ∨ opens row.context.kind := by
  induction evolve with
  | refl =>
      intro row rowMem
      exact Or.inl (Table.contains_eq_true_iff.mpr ⟨row, rowMem, rfl⟩)
  | @tail middle next _ change inductionHypothesis =>
      intro row rowMem
      cases change with
      | kinds contexts _ =>
          rw [contexts] at rowMem
          exact inductionHypothesis row rowMem
      | insert inserted meets insertedEq _ _ _ _ =>
          rcases (Table.mem_insert?_iff insertedEq).mp rowMem with old | rfl
          · exact inductionHypothesis row old
          · exact Or.inr meets
      | update old context found sameId sameKind _ _ contexts _ =>
          have foundRow := Table.mem_iff_find?.mp rowMem
          rw [contexts row.context.id] at foundRow
          split at foundRow
          · cases foundRow
            have kept := inductionHypothesis old (Table.mem_of_find? found)
            rw [sameId, sameKind]
            exact kept
          · exact inductionHypothesis row (Table.mem_of_find? foundRow)
      | delete id _ contexts _ =>
          rw [contexts] at rowMem
          exact inductionHypothesis row (Table.mem_deleteWhere_iff.mp rowMem).1

omit [Host] in
/-- Where no name of a context changes, none is created. -/
theorem contains_of_sameNames {db next : Db} (names : next.contextNames = db.contextNames)
    {row : ContextRow} (rowMem : row ∈ next.contexts) :
    db.contexts.contains row.context.id = true := by
  have named : (row.context.id, row.context.ownerPrincipal, row.context.kind, row.normalizedKey) ∈
      next.contextNames := List.mem_map_of_mem rowMem
  rw [names] at named
  obtain ⟨old, oldMem, same⟩ := List.mem_map.mp named
  exact Table.contains_eq_true_iff.mpr ⟨old, oldMem, (Prod.mk.inj same).1⟩

/-! ## Registration under owned keys -/

/-- Whether a principal owns a custom context under a key. -/
def Db.ownsKey (db : Db) (principal key : String) : Bool :=
  (db.ownedCustomContext principal (normalizeContextKey key)).isSome

/-- The keys that a registration looks up. -/
def ScopeDefinition.keys (scope : ScopeDefinition) : List String :=
  scope.scopeKey :: (scope.parent.toList ++ scope.related)

/-- Where a principal owns all given keys, no context is created or renamed. -/
def NamesKeptIfOwned (principal : String) (keys : List String) (db next : Db) : Prop :=
  (∀ key ∈ keys, db.ownsKey principal key = true) → next.contextNames = db.contextNames

theorem Db.ownsKey_congr {db next : Db} (names : next.contextNames = db.contextNames)
    (principal key : String) : next.ownsKey principal key = db.ownsKey principal key := by
  have byNames : ∀ state : Db, state.ownsKey principal key =
      state.contextNames.any fun name => name.2.1 == principal &&
        name.2.2.2 == normalizeContextKey key && name.2.2.1 == ContextKind.custom := by
    intro state
    rw [Db.ownsKey, Db.ownedCustomContext, Option.isSome_map, List.isSome_find?,
      Db.contextNames, List.any_map]
    rfl
  rw [byNames, byNames, names]

instance (principal : String) (keys : List String) : Std.Refl (NamesKeptIfOwned principal keys) :=
  ⟨fun _ _ => rfl⟩

instance (principal : String) (keys : List String) :
    IsTrans Db (NamesKeptIfOwned principal keys) where
  trans db middle next early late := by
    intro owns
    have names := early owns
    refine (late fun key keyMem => ?_).trans names
    rw [Db.ownsKey_congr names]
    exact owns key keyMem

theorem LeavesContexts.namesKept {α : Type} {body : StoreM α} {principal : String}
    {keys : List String} (inner : LeavesContexts body) :
    Within (NamesKeptIfOwned principal keys) body :=
  inner.mono fun db next same _ => by
    simp only [Keeps, Db.contextTables, Prod.mk.injEq] at same
    rw [Db.contextNames, same.1, Db.contextNames]

theorem namesKept_updateContext {principal : String} {keys : List String} {id : ContextId}
    {change : ContextDefinition → ContextDefinition}
    {keepsId : ∀ context, (change context).id = context.id}
    (sameOwner : ∀ context, (change context).ownerPrincipal = context.ownerPrincipal)
    (sameKind : ∀ context, (change context).kind = context.kind) :
    Within (NamesKeptIfOwned principal keys) (updateContext id change keepsId) :=
  (keepsNames_updateContext sameOwner sameKind).mono fun _ _ names _ => names

theorem namesKept_ensurePrivateLegacyScopeContext {newId : ContextId} {key : String}
    {keys : List String} (listed : key ∈ keys) (displayName description : Option String)
    (principal : String) (now : Instant) :
    Within (NamesKeptIfOwned principal keys)
      (ensurePrivateLegacyScopeContext newId key displayName description principal now) := by
  intro db value next ran owns
  cases ensurePrivateLegacyScopeContext_ok ran with
  | owned _ _ _ view => exact Db.contextNames_of_locatorView view
  | created unowned _ _ _ _ _ _ _ =>
      have owned := owns key listed
      rw [Db.ownsKey, unowned] at owned
      cases owned

theorem namesKept_registerScopeParent (newId contextId : ContextId) (scope : ScopeDefinition)
    (principal : String) (now : Instant) :
    Within (NamesKeptIfOwned principal scope.keys)
      (registerScopeParent newId contextId scope principal now) := by
  unfold registerScopeParent
  split
  · exact Within.bind (namesKept_updateContext (fun _ => rfl) fun _ => rfl) fun _ => Within.pure
  · rename_i key stated
    have listed : key ∈ scope.keys := by simp [ScopeDefinition.keys, stated]
    refine Within.bind (namesKept_ensurePrivateLegacyScopeContext listed _ _ _ _) fun _ => ?_
    refine Within.bind Within.require fun _ => ?_
    refine Within.bind Within.reads fun _ => ?_
    refine Within.bind Within.require fun _ => ?_
    exact Within.bind (namesKept_updateContext (fun _ => rfl) fun _ => rfl) fun _ => Within.pure

theorem namesKept_registerLegacyScopeContext (newId : Nat → ContextId) (scope : ScopeDefinition)
    (principal : String) (now : Instant) :
    Within (NamesKeptIfOwned principal scope.keys)
      (registerLegacyScopeContext newId scope principal now) := by
  refine Within.bind (readsOnly_orConflict _).within fun _ => ?_
  refine Within.bind (namesKept_ensurePrivateLegacyScopeContext List.mem_cons_self _ _ _ _)
    fun _ => ?_
  refine Within.bind (namesKept_registerScopeParent _ _ _ _ _) fun _ => ?_
  refine Within.bind (LeavesContexts.namesKept (Within.writes fun _ => rfl)) fun _ => ?_
  refine Within.bind (Within.forM fun _ _ => (leavesContexts_insertAliasRow _).namesKept)
    fun _ => ?_
  refine Within.bind (LeavesContexts.namesKept (Within.writes fun _ => rfl)) fun _ => ?_
  refine Within.bind (Within.forM fun _ _ => (leavesContexts_insertHintRow _).namesKept)
    fun _ => ?_
  refine Within.bind (LeavesContexts.namesKept (Within.writes fun _ => rfl)) fun _ => ?_
  refine Within.bind (Within.forM fun entry entryMem => ?_) fun _ =>
    (leavesContexts_insertContextAudit _ _ _ _).namesKept
  have listed : entry.1 ∈ scope.keys := by
    have related := List.fst_mem_of_mem_zipIdx entryMem
    simp [ScopeDefinition.keys, related]
  refine Within.bind (namesKept_ensurePrivateLegacyScopeContext listed _ _ _ _) fun _ => ?_
  apply LeavesContexts.namesKept
  split
  · exact Within.pure
  · exact Within.writes fun _ => rfl

/-! ## Commands -/

/-- Where a command keeps the disabled kinds closed.  A registration must find
all of its keys owned while custom contexts are disabled.  A reassignment must
not fall back on a visible context of a disabled kind that one of the moved
memories does not belong to yet. -/
def StoreCommand.AvoidsDisabledKinds (db : Db) : StoreCommand → Prop
  | .registerScope _ scope principal =>
      db.kindIsDisabled ContextKind.custom = false ∨
        ∀ key ∈ scope.keys, db.ownsKey principal key = true
  | .reassignScope _ fromScope toScope origin principal _ =>
      db.ownsKey principal toScope = true ∨
        ∀ id, db.activeUnderKey principal (normalizeContextKey toScope) = [id] →
          (∀ row, db.contexts.find? id = some row →
            db.kindIsDisabled row.context.kind = false) ∨
          ∀ memoryId ∈ db.reassignableIds fromScope origin principal,
            db.memoryContexts.contains (memoryId, id) = true
  | _ => True

/-- A draft that passes the checks of creation is of an enabled kind. -/
theorem enabled_of_validateCreation {draft : ContextCreateDraft} {db : Db} {result : Unit × Db}
    (ran : validateCreation draft db = .ok result) : db.kindIsEnabled draft.kind = true := by
  have ran := of_reads_bind ran
  obtain ⟨definition, found, ran⟩ := of_expect_bind ran
  obtain ⟨enabled, _⟩ := of_require_bind ran
  rw [Db.kindIsEnabled, found]
  exact enabled

/-- Only drafts and legacy keys create contexts. -/
theorem uncreated_body {handle : StoreHandle} {now : Instant} {command : StoreCommand}
    {db next : Db} {value : Unit} (adapts : command.adaptsScopes = false)
    (drafts : command.DraftsMeet (fun _ => False) now)
    (ran : command.body handle now db = .ok (value, next)) :
    ∀ row ∈ next.contexts, db.contexts.contains row.context.id = true := by
  have evolve : ContextsEvolve (fun _ => False) db next := by
    refine evolves_body (fun adapted => ?_) drafts ran
    rw [adapts] at adapted
    cases adapted
  intro row rowMem
  exact (@ContextsEvolve.created _ (fun _ => False) _ _ evolve row rowMem).resolve_right id

/-- The contexts that a command creates are of open kinds. -/
theorem created_body {handle : StoreHandle} {now : Instant} {command : StoreCommand} {db next : Db}
    {value : Unit} (avoids : command.AvoidsDisabledKinds db)
    (ran : command.body handle now db = .ok (value, next)) :
    ∀ row ∈ next.contexts,
      db.contexts.contains row.context.id = true ∨
        db.kindIsDisabled row.context.kind = false := by
  have ofOneKind : ∀ kind, db.kindIsDisabled kind = false →
      ContextsEvolve (fun row => row.context.kind = kind) db next → ∀ row ∈ next.contexts,
        db.contexts.contains row.context.id = true ∨
          db.kindIsDisabled row.context.kind = false := by
    intro kind isOpen evolve row rowMem
    rcases @ContextsEvolve.created _ (fun other => other = kind) _ _ evolve row rowMem with
      old | same
    · exact Or.inl old
    · rw [same]
      exact Or.inr isOpen
  have custom : AdmitsAdapter fun row => row.context.kind = ContextKind.custom :=
    fun _ _ same => same
  cases command with
  | registerScope newId scope principal =>
      rcases avoids with isOpen | owned
      · exact ofOneKind _ isOpen (evolves_registerLegacyScopeContext custom _ _ _ _ ran)
      · intro row rowMem
        have names := namesKept_registerLegacyScopeContext _ _ _ _ ran owned
        exact Or.inl (contains_of_sameNames names rowMem)
  | reassignScope newId fromScope toScope origin principal audit =>
      obtain ⟨_, _, ran, done⟩ := bind_eq_ok.mp ran
      cases pure_eq_ok.mp done
      have evolve := evolves_applyReassignScope custom _ _ _ _ _ _ _ ran
      have ran := of_reads_bind ran
      split at ran
      · cases pure_eq_ok.mp ran
        exact fun row rowMem => Or.inl (Table.contains_eq_true_iff.mpr ⟨row, rowMem, rfl⟩)
      · obtain ⟨_, _, resolved, _⟩ := bind_eq_ok.mp ran
        have enabled := (resolveOrCreatePrivateLegacyContext_ok resolved).1
        exact ofOneKind _ (Db.kindIsDisabled_of_enabled enabled) evolve
  | createContext draft audit =>
      obtain ⟨_, _, ran, done⟩ := bind_eq_ok.mp ran
      cases pure_eq_ok.mp done
      have drafted : (draft.toRow now).context.kind = draft.kind := rfl
      have evolve : ContextsEvolve (fun row => row.context.kind = draft.kind) db next :=
        (evolves_createContext drafted : Within (ContextsEvolve fun row =>
          row.context.kind = draft.kind) _) ran
      obtain ⟨_, _, ran⟩ := ReadsOnly.of_bind (readsOnly_validateCreateDraft _ _) ran
      obtain ⟨_, validated, _⟩ := ReadsOnly.of_bind (readsOnly_validateCreation _) ran
      exact ofOneKind _ (Db.kindIsDisabled_of_enabled (enabled_of_validateCreation validated)) evolve
  | _ =>
      intro row rowMem
      refine Or.inl (uncreated_body ?_ ?_ ran row rowMem)
      · rfl
      · exact trivial

/-- The context that a reassignment takes is stored, and of an open kind unless
it is the one visible context of the key. -/
theorem ReassignTarget.stored {newId id : ContextId} {key principal : String} {now : Instant}
    {db next : Db} (target : ReassignTarget newId key principal now db id next) :
    ∃ row, next.contexts.find? id = some row ∧
      (row.context.kind = ContextKind.custom ∨
        db.ownsKey principal key = false ∧ next = db ∧
          db.activeUnderKey principal (normalizeContextKey key) = [id]) := by
  cases target with
  | owned existing found _ same unchanged =>
      obtain ⟨row, rowMem, rfl, _, _, kind⟩ := Db.ownedCustomContext_spec found
      refine ⟨row, ?_, Or.inl kind⟩
      rw [unchanged, same]
      exact Table.mem_iff_find?.mp rowMem
  | visible unowned only unchanged =>
      have listed : id ∈ db.activeUnderKey principal (normalizeContextKey key) := by
        rw [only]
        exact List.mem_singleton_self id
      obtain ⟨row, rowMem, rfl⟩ := List.mem_map.mp listed
      refine ⟨row, ?_, Or.inr ⟨?_, unchanged, only⟩⟩
      · rw [unchanged]
        exact Table.mem_iff_find?.mp (Table.mem_select_iff.mp rowMem).1
      · rw [Db.ownsKey, unowned, Option.isSome_none]
  | created _ _ displayName description contexts new inserted written =>
      refine ⟨legacyAdapterRow newId key displayName description principal now, ?_, Or.inl rfl⟩
      rw [written, Table.find?_insert? inserted, new]
      exact if_pos rfl

/-- A reassignment changes no kind, and takes only its target as a new context
of the memories it moves. -/
theorem joined_applyReassignScope {newId : ContextId} {fromScope toScope : String}
    {origin : Option String} {principal : String} {audit : Option AuditDraft} {now : Instant}
    {db next : Db} {value : List MemoryId}
    (avoids : (StoreCommand.reassignScope newId fromScope toScope origin principal
      audit).AvoidsDisabledKinds db)
    (ran : applyReassignScope newId fromScope toScope origin principal audit now db =
      .ok (value, next)) {row : MembershipRow} (rowMem : row ∈ next.memoryContexts)
    (absent : db.memoryContexts.contains (row.memoryId, row.contextId) = false) :
    ∃ context, next.contexts.find? row.contextId = some context ∧
      db.kindIsDisabled context.context.kind = false := by
  have ran := of_reads_bind ran
  split at ran
  · cases pure_eq_ok.mp ran
    exact absurd rfl (Table.contains_eq_false_iff.mp absent row rowMem)
  · obtain ⟨id, middle, resolved, ran⟩ := bind_eq_ok.mp ran
    have ran := of_reads_bind ran
    obtain ⟨found, _, ran⟩ := of_expect_bind ran
    obtain ⟨_, _, moved, done⟩ := bind_eq_ok.mp ran
    cases pure_eq_ok.mp done
    obtain ⟨enabled, target⟩ := resolveOrCreatePrivateLegacyContext_ok resolved
    have kept : middle.memoryContexts = db.memoryContexts ∧
        middle.contextKinds = db.contextKinds := by
      cases target with
      | owned _ _ _ _ unchanged => rw [unchanged]; exact ⟨rfl, rfl⟩
      | visible _ _ unchanged => rw [unchanged]; exact ⟨rfl, rfl⟩
      | created _ _ _ _ _ _ _ written => rw [written]; exact ⟨rfl, rfl⟩
    let aims := fun memoryId contextId =>
      memoryId ∈ db.reassignableIds fromScope origin principal ∧ contextId = id
    have evolve : MembershipsEvolve aims middle next := by
      refine (Within.forM fun memoryId memoryMem => ?_ : Within (MembershipsEvolve aims) _) moved
      exact evolves_reassignMemory ⟨memoryMem, rfl⟩ _ _ _ _ _
    have side := evolve.contextSide
    simp only [Db.contextSide, Prod.mk.injEq] at side
    rcases evolve.joined rowMem with old | ⟨_, _, usable⟩ | ⟨memoryMem, aimed⟩
    · rw [kept.1, absent] at old
      cases old
    · obtain ⟨context, contextFound, contextEnabled⟩ := Db.enabled_of_contextUseAllowed usable
      refine ⟨context, ?_, Db.kindIsDisabled_of_enabled ?_⟩
      · rw [side.1]
        exact contextFound
      · rw [Db.kindIsEnabled, ← kept.2]
        exact contextEnabled
    · obtain ⟨context, contextFound, taken⟩ := target.stored
      refine ⟨context, by rw [side.1, aimed]; exact contextFound, ?_⟩
      rcases taken with custom | ⟨unowned, unchanged, only⟩
      · rw [custom]
        exact Db.kindIsDisabled_of_enabled enabled
      · rcases avoids with owned | fallback
        · rw [owned] at unowned
          cases unowned
        · rcases fallback id only with isOpen | belongs
          · rw [unchanged] at contextFound
            exact isOpen context contextFound
          · rw [aimed, belongs row.memoryId memoryMem] at absent
            cases absent

/-- The memories that a command adds to contexts join contexts of open kinds. -/
theorem joined_body {handle : StoreHandle} {now : Instant} {command : StoreCommand} {db next : Db}
    {value : Unit} (avoids : command.AvoidsDisabledKinds db)
    (ran : command.body handle now db = .ok (value, next)) {row : MembershipRow}
    (rowMem : row ∈ next.memoryContexts)
    (absent : db.memoryContexts.contains (row.memoryId, row.contextId) = false) :
    ∃ context, next.contexts.find? row.contextId = some context ∧
      db.kindIsDisabled context.context.kind = false := by
  cases reassigns : command.reassigns with
  | false =>
      rcases (membersOrContexts_body reassigns : Within (MembersOrContexts fun _ _ => False) _)
        ran with evolve | same
      · rcases evolve.joined rowMem with old | ⟨_, _, usable⟩ | impossible
        · rw [absent] at old
          cases old
        · obtain ⟨context, found, enabled⟩ := Db.enabled_of_contextUseAllowed usable
          have side := evolve.contextSide
          simp only [Db.contextSide, Prod.mk.injEq] at side
          rw [side.1]
          exact ⟨context, found, Db.kindIsDisabled_of_enabled enabled⟩
        · exact impossible.elim
      · rw [same] at rowMem
        exact absurd rfl (Table.contains_eq_false_iff.mp absent row rowMem)
  | true =>
      cases command with
      | reassignScope newId fromScope toScope origin principal audit =>
          obtain ⟨_, _, ran, done⟩ := bind_eq_ok.mp ran
          cases pure_eq_ok.mp done
          exact joined_applyReassignScope avoids ran rowMem absent
      | _ => cases reassigns

/-- A step whose command avoids disabled kinds keeps them closed. -/
theorem disabledKindsClosed_step {db next : Db} {call : StoreCall}
    (avoids : call.command.AvoidsDisabledKinds db) (stepEq : storeStep db call = some next) :
    DisabledKindsClosed db next := by
  have bounded : Within (fun before after => call.command.AvoidsDisabledKinds before →
      DisabledKindsClosed before after) (call.command.body call.handle call.now) := by
    intro before value after ran allowed
    constructor
    · intro row rowMem absent
      have made := created_body allowed ran row rowMem
      rw [absent] at made
      exact made.resolve_left Bool.false_ne_true
    · intro row rowMem absent
      exact joined_body allowed ran rowMem absent
  have : Std.Refl fun before after => call.command.AvoidsDisabledKinds before →
      DisabledKindsClosed before after := ⟨fun db _ => Std.Refl.refl db⟩
  exact storeStep_within bounded stepEq avoids

/-- In every run whose calls avoid disabled kinds, no operation creates a context
of a disabled kind or adds a memory to one, wherever in the run it is taken. -/
theorem disabled_kinds_stay_closed {start middle next : Db} {before after : List StoreCall}
    {call : StoreCall}
    (guarded : Guarded storeStep (fun db call => call.command.AvoidsDisabledKinds db) start
      (before ++ call :: after))
    (reached : run storeStep start before = some middle)
    (stepEq : storeStep middle call = some next) : DisabledKindsClosed middle next :=
  disabledKindsClosed_step (guarded.allowed_at reached) stepEq

omit [Host] in
/-- The operator adds the custom kind and disables it. -/
def customDisabled : List StoreCall :=
  [true, false].map fun enabled =>
    ⟨⟨3, none⟩, 0, .upsertContextKind ContextKind.custom "Custom" enabled operatorPrincipal
      ⟨operatorPrincipal, "context_kind_upsert", none, none, none⟩⟩

omit [Host] in
/-- A principal registers the scope `atlas`. -/
def atlasRegistration : StoreCall :=
  ⟨⟨3, none⟩, 0, .registerScope (fun n => ⟨n + 1⟩) ⟨"atlas", "Atlas", none, [], [], none, []⟩
    "owner"⟩

omit [Host] in
/-- A registration creates a custom context while custom contexts are disabled. -/
theorem disabled_kind_reopened :
    ∃ middle next, @run _ _ (@storeStep asciiHost) (Db.empty 3) customDisabled = some middle ∧
      @storeStep asciiHost middle atlasRegistration = some next ∧
      middle.kindIsDisabled ContextKind.custom = true ∧ ¬ DisabledKindsClosed middle next := by
  have ran : ∃ middle next,
      @run _ _ (@storeStep asciiHost) (Db.empty 3) customDisabled = some middle ∧
        @storeStep asciiHost middle atlasRegistration = some next ∧
        middle.kindIsDisabled ContextKind.custom = true ∧
        middle.contexts.contains ⟨1⟩ = false ∧
        ∃ row, next.contexts.find? ⟨1⟩ = some row ∧ row.context.kind = ContextKind.custom :=
    ⟨_, _, rfl, rfl, rfl, rfl, _, rfl, rfl⟩
  obtain ⟨middle, next, reached, stepEq, disabled, absent, row, found, kind⟩ := ran
  refine ⟨middle, next, reached, stepEq, disabled, fun closed => ?_⟩
  obtain ⟨rowMem, named⟩ := Table.find?_eq_some_iff.mp found
  have isOpen := closed.created row rowMem (by rw [named]; exact absent)
  rw [kind, disabled] at isOpen
  cases isOpen

omit [Host] in
/-- A memory joins a project before projects are disabled and the next one is
refused. -/
def projectDisabled : List StoreCall :=
  let kindAudit : ContextAuditDraft := ⟨operatorPrincipal, "context_kind_upsert", none, none, none⟩
  let audit : ContextAuditDraft := ⟨"owner", "memory_context", none, none, none⟩
  let memory := { Memory.plain ⟨7⟩ "owner" "a note" 0 with
    provenance := { Provenance.default with
      sourceAgent := some "owner"
      sourceConversation := some "borealis" } }
  [.upsertContextKind ContextKind.custom "Custom" true operatorPrincipal kindAudit,
    .upsertContextKind ContextKind.project "Project" true operatorPrincipal kindAudit,
    .createContext (projectDraft ⟨8⟩ "borealis") audit,
    .storeWithMetadataContexts ⟨⟨memory, none⟩, none,
      ⟨⟨7⟩, some "borealis", none, none, none, [], 1⟩, [⟨8⟩], ⟨.store, some "owner", 0, none⟩,
      audit⟩,
    .upsertContextKind ContextKind.project "Project" false operatorPrincipal kindAudit,
    .createContext (projectDraft ⟨9⟩ "cygnus") audit].map fun command => ⟨⟨3, none⟩, 0, command⟩

omit [Host] in
theorem disabled_kinds_stay_closed_enabled :
    ∃ middle next, @run _ _ (@storeStep asciiHost) (Db.empty 3) projectDisabled = some middle ∧
      @storeStep asciiHost middle atlasRegistration = some next ∧
      middle.kindIsDisabled ContextKind.project = true ∧
      middle.memoryContexts.contains (⟨7⟩, ⟨8⟩) = true ∧
      next.contexts.rows.map (·.context.id) = [⟨8⟩, ⟨1⟩] ∧ DisabledKindsClosed middle next := by
  have ran : ∃ middle next,
      @run _ _ (@storeStep asciiHost) (Db.empty 3) projectDisabled = some middle ∧
        @storeStep asciiHost middle atlasRegistration = some next ∧
        middle.kindIsDisabled ContextKind.project = true ∧
        middle.memoryContexts.contains (⟨7⟩, ⟨8⟩) = true ∧
        next.contexts.rows.map (·.context.id) = [⟨8⟩, ⟨1⟩] ∧
        middle.kindIsDisabled ContextKind.custom = false :=
    ⟨_, _, rfl, rfl, rfl, rfl, rfl, rfl⟩
  obtain ⟨middle, next, reached, stepEq, closed, joined, created, isOpen⟩ := ran
  refine ⟨middle, next, reached, stepEq, closed, joined, created, ?_⟩
  have harmless : ∀ call ∈ projectDisabled, ∀ db,
      @StoreCommand.AvoidsDisabledKinds asciiHost db call.command := by
    intro call callMem db
    fin_cases callMem <;> trivial
  exact @disabled_kinds_stay_closed asciiHost (Db.empty 3) middle next projectDisabled []
    atlasRegistration (Guarded.concat harmless reached (Or.inl isOpen)) reached stepEq

end LocalHold
