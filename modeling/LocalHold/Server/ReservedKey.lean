import LocalHold.Server.GovernedPolicy
import LocalHold.Store.ScopeInvariant
import LocalHold.Validation

/-!
# The reserved key

A memory without contexts reads the reserved key as its scope, so no context
may carry it.  The legacy adapters refuse the key; the creation of a context
does not.  The contexts of a run stay free of it exactly as long as no creation
asks for it, whatever legacy writes, registrations and reassignments happen in
between.
-/

namespace LocalHold

open Relational Transition Transition.Txn Transition.Checked

/-! ## Resolving a legacy scope -/

/-- The contexts that `list_legacy_scope_contexts` lists for a principal. -/
def Db.listsScope (db : Db) (principal : String) (row : ContextRow) : Bool :=
  ((row.context.ownerPrincipal == principal && row.context.kind == ContextKind.custom &&
      !row.context.frozen) ||
    (row.context.ownerPrincipal == legacySystemPrincipal && row.context.frozen)) &&
  row.context.lifecycle == .active &&
  db.contextAudit.any fun audit =>
    audit.contextId == some row.context.id &&
      (audit.action == "migrate_registered_scope" || audit.action == "legacy_scope_register")

/-- The registry entry that a context stands for. -/
def Db.scopeDefinition (db : Db) (row : ContextRow) : ScopeDefinition where
  scopeKey := row.context.key
  displayName := row.context.displayName
  description := row.context.description
  aliases := (orderBy (fun first second : AliasRow =>
      decide (first.normalizedAlias ≤ second.normalizedAlias))
    (db.contextAliases.select fun entry => decide (entry.contextId = row.context.id))).map
      (·.aliasText)
  matchers := (orderBy (fun first second : HintRow =>
      decide (first.normalizedHint ≤ second.normalizedHint))
    (db.contextHints.select fun entry => decide (entry.contextId = row.context.id))).map (·.hint)
  parent := (row.context.parentId.bind db.contexts.find?).map (·.context.key)
  related := (orderBy (fun first second : ContextRow =>
      decide (first.normalizedKey ≤ second.normalizedKey))
    ((db.contextRelations.select fun relation =>
      decide (relation.fromContextId = row.context.id ∧ relation.relation = "legacy_related")).filterMap
        fun relation => db.contexts.find? relation.toContextId)).map (·.context.key)

/-- `list_legacy_scope_contexts`. -/
def Db.listLegacyScopeContexts (db : Db) (principal : String) : List ScopeDefinition :=
  (orderBy (fun first second : ContextRow =>
      decide (first.normalizedKey < second.normalizedKey) ||
        (first.normalizedKey == second.normalizedKey &&
          decide (first.context.id ≤ second.context.id)))
    (db.contexts.select (db.listsScope principal))).map db.scopeDefinition

/-- Whether a text contains another. -/
def containsText (text part : String) : Bool :=
  decide (part.toList <:+: text.toList)

/-- The resolution of nothing, with the hint that matched nothing. -/
def unresolvedScope (hint : Option String) : ScopeResolution :=
  ⟨unresolvedContextKey, true, .unresolved, hint, none⟩

/-- The branch of `resolve_scope` for a stated scope. -/
def resolveExplicitScope (registry : List ScopeDefinition) (scope : String) : ScopeResolution :=
  match registry.find? fun entry => entry.scopeKey == scope with
  | some entry => ⟨entry.scopeKey, false, .explicit, none, some entry.scopeKey⟩
  | none =>
      match registry.findSome? fun entry =>
          (entry.aliases.find? fun name => name == scope).map fun name => (entry, name) with
      | some (entry, name) => ⟨entry.scopeKey, false, .contextAlias, some scope, some name⟩
      | none =>
          match registry.findSome? fun entry =>
              (entry.matchers.find? (containsText scope)).map fun matcher => (entry, matcher) with
          | some (entry, matcher) =>
              ⟨entry.scopeKey, false, .matcher, some scope, some matcher⟩
          | none => ⟨scope, false, .explicit, none, none⟩

/-- The branch of `resolve_scope` for hints. -/
def resolveHintedScope (registry : List ScopeDefinition) (contextHints : List String) :
    ScopeResolution :=
  match registry.findSome? fun entry => entry.matchers.findSome? fun matcher =>
      (contextHints.find? fun hint => containsText hint matcher).map fun hint =>
        (entry, hint, matcher) with
  | some (entry, hint, matcher) =>
      ⟨entry.scopeKey, false, .matcher, some hint, some matcher⟩
  | none => unresolvedScope contextHints.head?

/-- `resolve_scope`. -/
def Db.resolveScope (db : Db) (principal : String) (explicitScope : Option String)
    (contextHints : List String) : Except ValidationError ScopeResolution := do
  let explicitScope ← normalizeLegacyScopeValue "scope" explicitScope
  let registry := db.listLegacyScopeContexts principal
  match explicitScope with
  | some scope => return resolveExplicitScope registry scope
  | none =>
      if contextHints.isEmpty then
        return unresolvedScope none
      else
        return resolveHintedScope registry contextHints

/-- A resolution names the given scope, a registered one, or nothing. -/
inductive ScopeResolution.From (registry : List ScopeDefinition) : ScopeResolution → Prop where
  | stated (resolution : ScopeResolution) (explicit : resolution.resolvedBy = .explicit) :
      From registry resolution
  | registered (resolution : ScopeResolution) (entry : ScopeDefinition) (listed : entry ∈ registry)
      (named : resolution.scope = entry.scopeKey) : From registry resolution
  | nothing (resolution : ScopeResolution) (unmatched : resolution.unresolvedScope = true) :
      From registry resolution

theorem resolveExplicitScope_from (registry : List ScopeDefinition) (scope : String) :
    (resolveExplicitScope registry scope).From registry := by
  unfold resolveExplicitScope
  split
  · exact .stated _ rfl
  · split
    · rename_i entry name found
      obtain ⟨listed, listedMem, matched⟩ := List.exists_of_findSome?_eq_some found
      obtain ⟨_, _, same⟩ := Option.map_eq_some_iff.mp matched
      refine .registered _ listed listedMem ?_
      rw [← (Prod.mk.inj same).1]
    · split
      · rename_i entry matcher found
        obtain ⟨listed, listedMem, matched⟩ := List.exists_of_findSome?_eq_some found
        obtain ⟨_, _, same⟩ := Option.map_eq_some_iff.mp matched
        refine .registered _ listed listedMem ?_
        rw [← (Prod.mk.inj same).1]
      · exact .stated _ rfl

theorem resolveHintedScope_from (registry : List ScopeDefinition) (contextHints : List String) :
    (resolveHintedScope registry contextHints).From registry := by
  unfold resolveHintedScope
  split
  · rename_i entry hint matcher found
    obtain ⟨listed, listedMem, matched⟩ := List.exists_of_findSome?_eq_some found
    obtain ⟨_, _, inner⟩ := List.exists_of_findSome?_eq_some matched
    obtain ⟨_, _, same⟩ := Option.map_eq_some_iff.mp inner
    refine .registered _ listed listedMem ?_
    rw [← (Prod.mk.inj same).1]
  · exact .nothing _ rfl

theorem Db.resolveScope_from {db : Db} {principal : String} {explicitScope : Option String}
    {contextHints : List String} {resolution : ScopeResolution}
    (resolved : db.resolveScope principal explicitScope contextHints = .ok resolution) :
    resolution.From (db.listLegacyScopeContexts principal) := by
  unfold Db.resolveScope at resolved
  cases normalized : normalizeLegacyScopeValue "scope" explicitScope with
  | error error =>
      rw [normalized] at resolved
      cases resolved
  | ok stated =>
      rw [normalized] at resolved
      cases stated with
      | some scope =>
          cases resolved
          exact resolveExplicitScope_from _ _
      | none =>
          dsimp only [bind, Except.bind, pure, Except.pure] at resolved
          split at resolved
          · cases resolved
            exact .nothing _ rfl
          · cases resolved
            exact resolveHintedScope_from _ _

/-- Every listed scope is the key of a stored context. -/
theorem Db.exists_context_of_listed {db : Db} {principal : String} {entry : ScopeDefinition}
    (listed : entry ∈ db.listLegacyScopeContexts principal) :
    ∃ row ∈ db.contexts, entry.scopeKey = row.context.key := by
  obtain ⟨row, rowMem, rfl⟩ := List.mem_map.mp listed
  exact ⟨row, (Table.mem_select_iff.mp (mem_orderBy.mp rowMem)).1, rfl⟩

/-! ## Contexts without the reserved key -/

variable [Host]

/-- No context carries the reserved key. -/
structure Db.KeysUnreserved (db : Db) : Prop where
  normalized : ∀ row ∈ db.contexts, row.normalizedKey = normalizeContextKey row.context.key
  unreserved : ∀ row ∈ db.contexts, row.normalizedKey ≠ unresolvedContextKey

theorem Db.KeysUnreserved.change {db next : Db} (free : db.KeysUnreserved)
    (change : ContextChange (fun row => row.normalizedKey ≠ unresolvedContextKey) db next) :
    next.KeysUnreserved := by
  cases change with
  | kinds contexts _ =>
      constructor
      · rw [contexts]
        exact free.normalized
      · rw [contexts]
        exact free.unreserved
  | insert row meets inserted _ _ normalized _ =>
      constructor
      · intro other otherMem
        rcases (Table.mem_insert?_iff inserted).mp otherMem with older | rfl
        · exact free.normalized other older
        · exact normalized
      · intro other otherMem
        rcases (Table.mem_insert?_iff inserted).mp otherMem with older | rfl
        · exact free.unreserved other older
        · exact meets
  | update row context found _ _ sameKey _ contexts _ =>
      have rowMem := (Table.find?_eq_some_iff.mp found).1
      have rows : ∀ other ∈ next.contexts,
          other = { row with context := context } ∨ other ∈ db.contexts := by
        intro other otherMem
        have otherFound := Table.find?_eq_some_iff.mpr ⟨otherMem, rfl⟩
        rw [contexts] at otherFound
        split at otherFound
        · exact Or.inl (Option.some.inj otherFound).symm
        · exact Or.inr (Table.find?_eq_some_iff.mp otherFound).1
      constructor
      · intro other otherMem
        rcases rows other otherMem with rfl | older
        · rw [sameKey]
          exact free.normalized row rowMem
        · exact free.normalized other older
      · intro other otherMem
        rcases rows other otherMem with rfl | older
        · exact free.unreserved row rowMem
        · exact free.unreserved other older
  | delete id _ contexts _ =>
      have older : ∀ row ∈ next.contexts, row ∈ db.contexts := by
        intro row rowMem
        rw [contexts] at rowMem
        exact (Table.mem_deleteWhere_iff.mp rowMem).1
      exact ⟨fun row rowMem => free.normalized row (older row rowMem),
        fun row rowMem => free.unreserved row (older row rowMem)⟩

/-- A step that creates no context under the reserved key keeps the contexts
free of it. -/
theorem Db.KeysUnreserved.step {db next : Db} {call : StoreCall} (free : db.KeysUnreserved)
    (drafts : call.command.DraftsMeet
      (fun row => row.normalizedKey ≠ unresolvedContextKey) call.now)
    (stepEq : storeStep db call = some next) : next.KeysUnreserved := by
  have evolved := storeStep_evolves (fun _ _ meets _ => meets) drafts stepEq
  exact evolved.invariant (fun _ _ held change => held.change change) free

/-! ## Legacy writes between commands -/

omit [Host] in
/-- The store with what servers carry from one call to the next: scopes that
were resolved, and the implied contexts that are about to be created. -/
structure ScopeWorld where
  db : Db
  resolutions : List ScopeResolution
  creations : List (ContextCreateDraft × ContextAuditDraft)

omit [Host] in
/-- The world of servers that have not started anything. -/
def ScopeWorld.opening (db : Db) : ScopeWorld :=
  ⟨db, [], []⟩

omit [Host] in
/-- One call of a server.  A legacy write resolves its scope, prepares the
implied context and creates it; other calls may come in between. -/
inductive ScopeEvent where
  | call (request : StoreCall)
  | resolve (principal : String) (explicitScope : Option String) (contextHints : List String)
  | prepare (index : Nat) (newId : ContextId) (principal : String)
      (mode : LegacyContextResolutionMode)
  | create (index : Nat) (handle : StoreHandle) (now : Instant)

variable [IdentityHost]

omit [IdentityHost] in
/-- Perform a store call in a world. -/
def ScopeWorld.perform (world : ScopeWorld) (call : StoreCall) : Option ScopeWorld :=
  (storeStep world.db call).map fun next => { world with db := next }

/-- One step of the servers. -/
def scopeStep (world : ScopeWorld) : ScopeEvent → Option ScopeWorld
  | .call request => world.perform request
  | .resolve principal explicitScope contextHints =>
      match world.db.resolveScope principal explicitScope contextHints with
      | .ok resolution => some { world with resolutions := resolution :: world.resolutions }
      | .error _ => some world
  | .prepare index newId principal mode =>
      world.resolutions[index]?.map fun resolution =>
        match world.db.legacyTarget newId principal resolution mode with
        | .ok (.create draft audit) =>
            { world with creations := (draft, audit) :: world.creations }
        | _ => world
  | .create index handle now =>
      world.creations[index]?.bind fun creation =>
        world.perform ⟨handle, now, .createContext creation.1 creation.2⟩

omit [Host] [IdentityHost] in
/-- The commands of an event are governed. -/
def ScopeEvent.governed : ScopeEvent → Bool
  | .call request => request.command.governed
  | _ => true

omit [IdentityHost] in
/-- A command does not create a context under the reserved key. -/
def StoreCommand.Unreserved : StoreCommand → Prop
  | .createContext draft _ => normalizeContextKey draft.key ≠ unresolvedContextKey
  | _ => True

omit [IdentityHost] in
/-- A `context_create` call does not ask for the reserved key. -/
def ScopeEvent.Unreserved : ScopeEvent → Prop
  | .call request => request.command.Unreserved
  | _ => True

omit [IdentityHost] in
theorem StoreCommand.Unreserved.draftsMeet {command : StoreCommand} {now : Instant}
    (unreserved : command.Unreserved) :
    command.DraftsMeet (fun row => row.normalizedKey ≠ unresolvedContextKey) now := by
  cases command with
  | createContext draft audit => exact unreserved
  | _ => trivial

/-- A resolution that leads to no context under the reserved key. -/
def ScopeResolution.Harmless (resolution : ScopeResolution) : Prop :=
  resolution.resolvedBy = .explicit ∨ resolution.unresolvedScope = true ∨
    normalizeContextKey resolution.scope ≠ unresolvedContextKey

omit [IdentityHost] in
theorem Db.KeysUnreserved.harmless {db : Db} (free : db.KeysUnreserved) {principal : String}
    {explicitScope : Option String} {contextHints : List String} {resolution : ScopeResolution}
    (resolved : db.resolveScope principal explicitScope contextHints = .ok resolution) :
    resolution.Harmless := by
  cases Db.resolveScope_from resolved with
  | stated explicit => exact Or.inl explicit
  | nothing unmatched => exact Or.inr (Or.inl unmatched)
  | registered entry listed named =>
      obtain ⟨row, rowMem, keyed⟩ := Db.exists_context_of_listed listed
      refine Or.inr (Or.inr ?_)
      rw [named, keyed, ← free.normalized row rowMem]
      exact free.unreserved row rowMem

omit [IdentityHost] in
/-- The implied context of a scope has the scope as its key. -/
theorem legacyCreation_draft {db : Db} {newId : ContextId} {principal scope : String}
    {mode : LegacyContextResolutionMode} {draft : ContextCreateDraft} {audit : ContextAuditDraft}
    (prepared : legacyCreation db newId principal scope mode = .ok (.create draft audit)) :
    draft.key = scope := by
  obtain ⟨_, _, prepared⟩ := Transition.Checked.bind_eq_ok.mp prepared
  obtain ⟨_, _, prepared⟩ := Transition.Checked.bind_eq_ok.mp prepared
  dsimp only at prepared
  split at prepared
  · cases prepared
    rfl
  · obtain ⟨_, prepared⟩ := of_ensure_bind prepared
    obtain ⟨_, _, done⟩ := Transition.Checked.bind_eq_ok.mp prepared
    cases done

/-- The implied context of a harmless resolution does not have the reserved key. -/
theorem ScopeResolution.Harmless.draft {resolution : ScopeResolution}
    (harmless : resolution.Harmless)
    (lowercase : normalizeContextKey unresolvedContextKey = unresolvedContextKey) {db : Db}
    {newId : ContextId} {principal : String} {mode : LegacyContextResolutionMode}
    {draft : ContextCreateDraft} {audit : ContextAuditDraft}
    (prepared : db.legacyTarget newId principal resolution mode = .ok (.create draft audit)) :
    normalizeContextKey draft.key ≠ unresolvedContextKey := by
  obtain ⟨stated, prepared⟩ := of_ensure_bind prepared
  split at prepared
  · obtain ⟨_, prepared⟩ := of_ensure_bind prepared
    obtain ⟨_, _, done⟩ := Transition.Checked.bind_eq_ok.mp prepared
    cases done
  · rename_i resolved
    have drafted : draft.key = resolution.scope := by
      split at prepared
      · cases prepared
      · split at prepared
        · exact legacyCreation_draft prepared
        · cases prepared
      · cases prepared
    rw [drafted]
    intro reserved
    rcases harmless with explicit | unmatched | different
    · simp [lowercase, reserved, explicit] at stated
    · exact resolved unmatched
    · exact different reserved

/-- What holds in every world that unreserved events reach. -/
structure ScopeWorld.Unreserved (world : ScopeWorld) : Prop where
  contexts : world.db.KeysUnreserved
  scopes : world.db.ScopesCached
  resolutions : ∀ resolution ∈ world.resolutions, resolution.Harmless
  creations : ∀ creation ∈ world.creations,
    normalizeContextKey creation.1.key ≠ unresolvedContextKey

omit [IdentityHost] in
theorem ScopeWorld.Unreserved.perform {world next : ScopeWorld} (held : world.Unreserved)
    {call : StoreCall} (governed : call.command.governed = true)
    (unreserved : call.command.Unreserved) (performed : world.perform call = some next) :
    next.Unreserved := by
  obtain ⟨db, stepEq, rfl⟩ := Option.map_eq_some_iff.mp performed
  exact ⟨held.contexts.step unreserved.draftsMeet stepEq,
    storeStep_within (safe_body governed call.handle call.now) stepEq held.scopes,
    held.resolutions, held.creations⟩

theorem ScopeWorld.Unreserved.step {world next : ScopeWorld} (held : world.Unreserved)
    (lowercase : normalizeContextKey unresolvedContextKey = unresolvedContextKey)
    {event : ScopeEvent} (governed : event.governed = true) (unreserved : event.Unreserved)
    (stepEq : scopeStep world event = some next) : next.Unreserved := by
  cases event with
  | call request => exact held.perform governed unreserved stepEq
  | resolve principal explicitScope contextHints =>
      rw [scopeStep] at stepEq
      split at stepEq
      · rename_i resolution resolved
        cases stepEq
        refine ⟨held.contexts, held.scopes, ?_, held.creations⟩
        intro other otherMem
        rcases List.mem_cons.mp otherMem with rfl | older
        · exact held.contexts.harmless resolved
        · exact held.resolutions other older
      · cases stepEq
        exact held
  | prepare index newId principal mode =>
      obtain ⟨resolution, found, rfl⟩ := Option.map_eq_some_iff.mp stepEq
      have harmless := held.resolutions resolution (List.mem_of_getElem? found)
      split
      · rename_i draft audit prepared
        refine ⟨held.contexts, held.scopes, held.resolutions, ?_⟩
        intro other otherMem
        rcases List.mem_cons.mp otherMem with rfl | older
        · exact harmless.draft lowercase prepared
        · exact held.creations other older
      · exact held
  | create index handle now =>
      obtain ⟨creation, found, performed⟩ := Option.bind_eq_some_iff.mp stepEq
      have unreservedKey := held.creations creation (List.mem_of_getElem? found)
      refine held.perform ?_ ?_ performed
      · rfl
      · exact unreservedKey

/-! ## Runs -/

omit [IdentityHost] in
theorem Db.KeysUnreserved.of_empty {db : Db} (fresh : db.contexts = Table.empty) :
    db.KeysUnreserved := by
  constructor
  · intro row rowMem
    rw [fresh] at rowMem
    exact absurd rowMem List.not_mem_nil
  · intro row rowMem
    rw [fresh] at rowMem
    exact absurd rowMem List.not_mem_nil

omit [IdentityHost] in
theorem normalizeContextKey_unresolved
    (lowercase : Host.toLowercase unresolvedContextKey = unresolvedContextKey) :
    normalizeContextKey unresolvedContextKey = unresolvedContextKey := by
  rw [normalizeContextKey, show trim unresolvedContextKey = unresolvedContextKey by decide,
    lowercase]

omit [Host] [IdentityHost] in
/-- Memberships numbered from zero without ordinal zero are none. -/
theorem Db.ScopesCached.no_memberships {db : Db} (cached : db.ScopesCached) {id : MemoryId}
    (none : ∀ membership ∈ db.memoryContexts, membership.memoryId = id → membership.ordinal ≠ 0) :
    ∀ membership ∈ db.memoryContexts, membership.memoryId ≠ id := by
  intro membership stored own
  have ordinals : (db.membershipsOf id).map (·.ordinal) = List.range _ :=
    (cached.cached id).ordinals
  have memberMem : membership ∈ db.membershipsOf id :=
    Table.mem_select_iff.mpr ⟨stored, decide_eq_true own⟩
  have first : 0 ∈ (db.membershipsOf id).map (·.ordinal) := by
    rw [ordinals, List.mem_range]
    exact List.length_pos_of_mem (List.mem_map_of_mem memberMem)
  obtain ⟨primary, primaryMem, zero⟩ := List.mem_map.mp first
  obtain ⟨primaryStored, primaryOwn⟩ := Table.mem_select_iff.mp primaryMem
  exact none primary primaryStored (decide_eq_true_eq.mp primaryOwn) zero

omit [IdentityHost] in
/-- Where no context carries the reserved key, it is the scope of exactly the
memories without contexts. -/
theorem Db.KeysUnreserved.unresolved_iff {db : Db} (free : db.KeysUnreserved)
    (cached : db.ScopesCached)
    (lowercase : normalizeContextKey unresolvedContextKey = unresolvedContextKey)
    {row : MemoryRow} (rowMem : row ∈ db.memories) :
    row.provenance.sourceConversation = some unresolvedContextKey ↔
      ∀ membership ∈ db.memoryContexts, membership.memoryId ≠ row.id := by
  have found : db.memories.find? row.id = some row := Table.find?_eq_some_iff.mpr ⟨rowMem, rfl⟩
  have copied : row.provenance.sourceConversation = some (db.compatibilityScopeKey row.id) := by
    apply (cached.cached row.id).conversation
    rw [Db.scopeView, found, Option.map_some]
  rw [copied, Option.some.injEq]
  constructor
  · intro reserved
    have scope := (cached.hasScope_iff row.id _).mpr rfl
    generalize db.compatibilityScopeKey row.id = key at reserved scope
    cases scope with
    | unresolved none => exact cached.no_memberships none
    | primary membership _ _ _ context found =>
        have contextMem := (Table.find?_eq_some_iff.mp found).1
        have normalized := free.normalized context contextMem
        rw [reserved, lowercase] at normalized
        exact absurd normalized (free.unreserved context contextMem)
  · intro none
    refine ((cached.hasScope_iff row.id unresolvedContextKey).mp (.unresolved ?_)).symm
    intro membership stored own
    exact absurd own (none membership stored)

/-- In every run from a store without contexts and memories in which no
`context_create` call asks for the reserved key, no context carries the key, and
a memory reads it as its scope if and only if it has no contexts. -/
theorem reserved_key_unused {start : Db} {final : ScopeWorld} {events : List ScopeEvent}
    (lowercase : Host.toLowercase unresolvedContextKey = unresolvedContextKey)
    (vacant : start.Vacant) (fresh : start.contexts = Table.empty)
    (governed : ∀ event ∈ events, event.governed = true)
    (unreserved : ∀ event ∈ events, event.Unreserved)
    (runEq : run scopeStep (.opening start) events = some final) :
    (∀ row ∈ final.db.contexts, row.normalizedKey ≠ unresolvedContextKey) ∧
      ∀ row ∈ final.db.memories,
        (row.provenance.sourceConversation = some unresolvedContextKey ↔
          ∀ membership ∈ final.db.memoryContexts, membership.memoryId ≠ row.id) := by
  have normal := normalizeContextKey_unresolved lowercase
  have opening : (ScopeWorld.opening start).Unreserved :=
    ⟨.of_empty fresh, vacant.scopesCached, fun _ absent => absurd absent List.not_mem_nil,
      fun _ absent => absurd absent List.not_mem_nil⟩
  have allowed : ∀ event ∈ events, event.governed = true ∧ event.Unreserved :=
    fun event eventMem => ⟨governed event eventMem, unreserved event eventMem⟩
  have held : final.Unreserved :=
    run_invariant_of_guarded
      (fun _ _ _ held meets stepEq => held.step normal meets.1 meets.2 stepEq)
      (Guarded.of_forall allowed _) opening runEq
  exact ⟨held.contexts.unreserved, fun row rowMem =>
    held.contexts.unresolved_iff held.scopes normal rowMem⟩

omit [Host] [IdentityHost] in
/-- A project under a key is created and a memory is stored in it. -/
def storedUnder (key : String) : List ScopeEvent :=
  let memory := { Memory.plain ⟨7⟩ "owner" "a note" 0 with
    provenance := { Provenance.default with
      sourceAgent := some "owner"
      sourceConversation := some key } }
  let audit : ContextAuditDraft := ⟨"owner", "memory_context", none, none, none⟩
  let request : GovernedItem :=
    ⟨⟨memory, none⟩, none, ⟨⟨7⟩, some key, none, none, none, [], 1⟩, [⟨1⟩],
      ⟨.store, some "owner", 0, none⟩, audit⟩
  [.createContext (projectDraft ⟨1⟩ key) audit,
    .storeWithMetadataContexts request].map fun command => .call ⟨⟨3, none⟩, 0, command⟩

omit [Host] [IdentityHost] in
theorem reserved_key_unused_atlas :
    projectKindStore.Vacant ∧ projectKindStore.contexts = Table.empty ∧
      (∀ event ∈ storedUnder "atlas", event.governed = true) ∧
      (∀ event ∈ storedUnder "atlas", @ScopeEvent.Unreserved asciiHost event) ∧
      ∃ final, @run _ _ (@scopeStep asciiHost plainIdentities) (.opening projectKindStore)
        (storedUnder "atlas") = some final ∧
        ∃ row ∈ final.db.memories,
          row.provenance.sourceConversation ≠ some unresolvedContextKey ∧
            ¬∀ membership ∈ final.db.memoryContexts, membership.memoryId ≠ row.id := by
  have vacant : projectKindStore.Vacant := ⟨rfl, rfl, rfl⟩
  have governed : ∀ event ∈ storedUnder "atlas", event.governed = true := by decide
  have unreserved : ∀ event ∈ storedUnder "atlas", @ScopeEvent.Unreserved asciiHost event := by
    intro event eventMem
    rcases List.mem_cons.mp eventMem with rfl | eventMem
    · show @normalizeContextKey asciiHost "atlas" ≠ unresolvedContextKey
      decide
    · rw [List.mem_singleton.mp eventMem]
      trivial
  have ran : ∃ final, @run _ _ (@scopeStep asciiHost plainIdentities)
      (.opening projectKindStore) (storedUnder "atlas") = some final ∧
      ∃ row, final.db.memories.find? ⟨7⟩ = some row ∧
        row.provenance.sourceConversation = some "atlas" :=
    ⟨_, rfl, _, rfl, rfl⟩
  obtain ⟨final, runEq, row, found, stated⟩ := ran
  have rowMem := (Table.find?_eq_some_iff.mp found).1
  have reads := (@reserved_key_unused asciiHost plainIdentities _ _ _ (by decide) vacant rfl
    governed unreserved runEq).2 row rowMem
  have different : row.provenance.sourceConversation ≠ some unresolvedContextKey := by
    rw [stated]
    decide
  exact ⟨vacant, rfl, governed, unreserved, final, runEq, row, rowMem, different,
    fun none => different (reads.mpr none)⟩

omit [Host] [IdentityHost] in
/-- A context may be created under the reserved key; its members then read as
memories without contexts. -/
theorem reserved_key_created :
    ∃ final, @run _ _ (@scopeStep asciiHost plainIdentities) (.opening projectKindStore)
        (storedUnder "inbox/unresolved") = some final ∧
      (∃ row ∈ final.db.contexts, row.normalizedKey = unresolvedContextKey) ∧
      ∃ row ∈ final.db.memories,
        row.provenance.sourceConversation = some unresolvedContextKey ∧
          ∃ membership ∈ final.db.memoryContexts, membership.memoryId = row.id := by
  have ran : ∃ final, @run _ _ (@scopeStep asciiHost plainIdentities)
      (.opening projectKindStore) (storedUnder "inbox/unresolved") = some final ∧
      (∃ row, final.db.contexts.find? ⟨1⟩ = some row ∧
        row.normalizedKey = unresolvedContextKey) ∧
      (∃ row, final.db.memories.find? ⟨7⟩ = some row ∧
        row.provenance.sourceConversation = some unresolvedContextKey) ∧
      ∃ membership, final.db.memoryContexts.find? (⟨7⟩, ⟨1⟩) = some membership :=
    ⟨_, rfl, ⟨_, rfl, rfl⟩, ⟨_, rfl, rfl⟩, _, rfl⟩
  obtain ⟨final, runEq, ⟨context, contextFound, reserved⟩, ⟨row, rowFound, reads⟩, membership,
    membershipFound⟩ := ran
  obtain ⟨contextMem, _⟩ := Table.find?_eq_some_iff.mp contextFound
  obtain ⟨rowMem, rowNamed⟩ := Table.find?_eq_some_iff.mp rowFound
  obtain ⟨membershipMem, membershipNamed⟩ := Table.find?_eq_some_iff.mp membershipFound
  refine ⟨final, runEq, ⟨context, contextMem, reserved⟩, row, rowMem, reads, membership,
    membershipMem, ?_⟩
  rw [rowNamed, (Prod.mk.inj membershipNamed).1]

end LocalHold
