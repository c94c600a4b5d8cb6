import LocalHold.Store.Index

/-!
# Filtered reads

The read paths of `query.rs` and `search.rs`.  A filter is tested twice: the
SQL conditions test the stored columns, then the rows they select are tested in
Rust against the view that the caller may see.  Every path ends with that
second test; the text, full-text and vector paths also ask whether the caller
may search the content.

Paging and result limits decide how many of the accepted rows are returned and
are left out: the outcome of a path is stated for one stored memory.
-/

namespace LocalHold

open Relational

/-! ## Filters -/

/-- `TimeRange`. -/
structure TimeRange where
  after : Option Instant
  before : Option Instant
deriving DecidableEq

/-- `MemoryFilter`. -/
structure MemoryFilter where
  contextIds : Option (List ContextId)
  legacyContextIdsAny : Option (List ContextId)
  explicitContextFilter : Bool
  tags : Option (List String)
  agentLabel : Option String
  scope : Option String
  originScope : Option String
  scopesAny : Option (List String)
  timeRange : Option TimeRange
  textSearch : Option String
  hasEmbedding : Option Bool
  memoryType : Option MemoryType
  includeSuperseded : Option Bool
  entity : Option String
  entitiesAny : Option (List String)
  entityType : Option String

/-- `MemoryFilter::default()`. -/
def MemoryFilter.default : MemoryFilter where
  contextIds := none
  legacyContextIdsAny := none
  explicitContextFilter := false
  tags := none
  agentLabel := none
  scope := none
  originScope := none
  scopesAny := none
  timeRange := none
  textSearch := none
  hasEmbedding := none
  memoryType := none
  includeSuperseded := none
  entity := none
  entitiesAny := none
  entityType := none

/-- `normalize_filter`: trim and lowercase the text, and drop it when blank. -/
def normalizeFilter [Host] (filter : MemoryFilter) : MemoryFilter :=
  { filter with
    textSearch := (filter.textSearch.map fun text => Host.toLowercase (trim text)).filter
      fun text => text != "" }

/-- A filter with a context selection, as the server and the browser build it:
naming a context makes the filter explicit. -/
def MemoryFilter.withContexts (filter : MemoryFilter) (effectiveIds : List ContextId) :
    MemoryFilter :=
  { filter with
    contextIds := some effectiveIds
    legacyContextIdsAny := none
    explicitContextFilter := !effectiveIds.isEmpty }

/-- A filter with the context memberships of a legacy scope list, as the server
builds it. -/
def MemoryFilter.withLegacyContexts (filter : MemoryFilter) (ids : List ContextId) :
    MemoryFilter :=
  { filter with
    contextIds := none
    legacyContextIdsAny := some ids
    explicitContextFilter := true }

/-- Whether a filter that names contexts is marked explicit. -/
def MemoryFilter.namesContextsExplicitly (filter : MemoryFilter) : Prop :=
  filter.explicitContextFilter = false →
    filter.contextIds.getD [] = [] ∧ filter.legacyContextIdsAny.getD [] = []

theorem MemoryFilter.namesContextsExplicitly_withContexts (filter : MemoryFilter)
    (effectiveIds : List ContextId) :
    (filter.withContexts effectiveIds).namesContextsExplicitly := by
  intro implicit
  simpa [withContexts] using implicit

theorem MemoryFilter.namesContextsExplicitly_withLegacyContexts (filter : MemoryFilter)
    (ids : List ContextId) : (filter.withLegacyContexts ids).namesContextsExplicitly := by
  intro implicit
  simp [withLegacyContexts] at implicit

/-! ## Stored memories -/

/-- A context attached to a memory, as the membership conditions see it. -/
structure AttachedContext where
  id : ContextId
  kind : ContextKind
  lifecycle : ContextLifecycle
deriving DecidableEq

/-- What the store holds for one memory: its columns, and the rows of other
tables that belong to it. -/
structure StoredMemory where
  columns : Memory
  entities : List Entity
  contexts : List AttachedContext
  vector : Option Embedding

/-- The columns of a memory with a list of entities. -/
def Memory.withEntities (memory : Memory) (entities : List Entity) : Memory :=
  { memory with entities := entities }

/-- A memory with its entities. -/
def StoredMemory.hydrated (stored : StoredMemory) : Memory :=
  stored.columns.withEntities stored.entities

/-- Whether an active context is attached. -/
def StoredMemory.governed (stored : StoredMemory) : Bool :=
  stored.contexts.any fun context => decide (context.lifecycle = .active)

/-- Whether a filter needs entities before it is tested. -/
def needsEntityHydration (filter : MemoryFilter) : Bool :=
  filter.entity.isSome || filter.entitiesAny.isSome || filter.entityType.isSome

/-- The memory that a path with late hydration tests; a fetched row has no
entities. -/
def StoredMemory.fetched (stored : StoredMemory) (filter : MemoryFilter) : Memory :=
  stored.columns.withEntities (if needsEntityHydration filter then stored.entities else [])

/-- The stored memory of a row. -/
def Db.stored (db : Db) (row : MemoryRow) : StoredMemory where
  columns := row.toMemory
  entities := (db.entities.select fun entry => decide (entry.memoryId = row.id)).map (·.entity)
  contexts :=
    (db.memoryContexts.select fun entry => decide (entry.memoryId = row.id)).filterMap
      fun entry => (db.contexts.find? entry.contextId).map fun context =>
        ⟨context.context.id, context.context.kind, context.context.lifecycle⟩
  vector := db.vectorOf row.id

/-! ## Filter dimensions -/

/-- Any-match of a present and non-empty list. -/
def matchesAny (wanted : Option (List String)) (holds : String → Bool) : Bool :=
  wanted.all fun values => values.isEmpty || values.any holds

/-- The tag dimension. -/
def matchesTags (filter : MemoryFilter) (tags : List String) : Bool :=
  matchesAny filter.tags fun tag => tags.contains tag

/-- The dimensions on provenance: agent label, scope, origin scope and scopes. -/
def matchesProvenance (filter : MemoryFilter) (provenance : Provenance) : Bool :=
  (filter.agentLabel.all fun agent => provenance.sourceAgent == some agent) &&
    (filter.scope.all fun scope => provenance.sourceConversation == some scope) &&
    (filter.originScope.all fun scope =>
      provenance.originConversation.or provenance.sourceConversation == some scope) &&
    matchesAny filter.scopesAny fun scope => provenance.sourceConversation == some scope

/-- The dimensions on entities: a name, any of several names, and a type. -/
def matchesEntities (filter : MemoryFilter) (entities : List Entity) : Bool :=
  (filter.entity.all fun name => entities.any fun entity => entity.name == name) &&
    (matchesAny filter.entitiesAny fun name => entities.any fun entity => entity.name == name) &&
    (filter.entityType.all fun kind => entities.any fun entity => entity.entityType == kind)

/-- The creation window, on timestamps. -/
def matchesTimeRange (filter : MemoryFilter) (createdAt : Instant) : Bool :=
  filter.timeRange.all fun range =>
    (range.after.all fun after => decide (after ≤ createdAt)) &&
      range.before.all fun before => decide (createdAt < before)

/-- `contains_case_insensitive_ascii`; the needle is lowercase. -/
def containsCaseInsensitiveAscii [Host] (haystack needle : String) : Bool :=
  if haystack.toList.all fun c => decide (c.toNat < 128) then
    decide (needle.toList <:+: (asciiLowercase haystack).toList)
  else
    decide (needle.toList <:+: (Host.toLowercase haystack).toList)

/-- The lifecycle dimensions: supersession and expiry. -/
def matchesLifecycleFilter (memory : Memory) (filter : MemoryFilter) (now : Instant) : Bool :=
  (filter.includeSuperseded.getD false || memory.supersededBy.isNone) &&
    memory.expiresAt.all fun expiry => decide (now < expiry)

/-- `matches_non_access_filter`. -/
def matchesNonAccessFilter [Host] (memory : Memory) (filter : MemoryFilter) (now : Instant) :
    Bool :=
  matchesTags filter memory.tags && matchesProvenance filter memory.provenance &&
    matchesEntities filter memory.entities && matchesTimeRange filter memory.createdAt &&
    (filter.textSearch.all fun text => containsCaseInsensitiveAscii memory.content text) &&
    (filter.hasEmbedding.all fun wanted => memory.hasEmbedding == wanted) &&
    (filter.memoryType.all fun wanted => memory.memoryType == wanted) &&
    matchesLifecycleFilter memory filter now

/-- `apply_access_policy_for_filter`: the view a filtered query may return. -/
def applyAccessPolicyForFilter [Host] (memory : Memory) (filter : MemoryFilter)
    (caller : Option String) (now : Instant) : Option Memory :=
  if !matchesLifecycleFilter memory filter now then none
  else
    match memory.applyAccessPolicy caller with
    | none => none
    | some visible =>
        if visible.wasRedacted && memory.supersededBy.isSome then none
        else if visible.wasRedacted && filter.explicitContextFilter then none
        else if !matchesNonAccessFilter visible filter now then none
        else if filter.textSearch.isSome && !visible.contentSearchableBy caller then none
        else some visible

/-! ## SQL conditions -/

/-- `content LIKE '%…%'` with an escaped pattern: ASCII letters match in either
case. -/
def likeContains (content text : String) : Bool :=
  decide ((asciiLowercase text).toList <:+: (asciiLowercase content).toList)

/-- The creation window, on stored text. -/
def sqlTimeRange [Host] (filter : MemoryFilter) (createdAt : Instant) : Bool :=
  filter.timeRange.all fun range =>
    (range.after.all fun after =>
      decide (Host.toRfc3339 after ≤ Host.toRfc3339 createdAt)) &&
      range.before.all fun before =>
        decide (Host.toRfc3339 createdAt < Host.toRfc3339 before)

/-- Every kind of an attached active context has an attached active context
among the selected ones. -/
def contextsCompatible (contextIds : List ContextId) (contexts : List AttachedContext) : Bool :=
  contexts.all fun attached => decide (attached.lifecycle ≠ .active) ||
    contexts.any fun compatible => decide (compatible.kind = attached.kind) &&
      decide (compatible.lifecycle = .active) && contextIds.contains compatible.id

/-- The governed membership conditions. -/
def sqlContexts (filter : MemoryFilter) (stored : StoredMemory) : Bool :=
  (filter.contextIds.all fun contextIds =>
    stored.governed && (contextIds.isEmpty || contextsCompatible contextIds stored.contexts)) &&
    filter.legacyContextIdsAny.all fun contextIds =>
      contextIds.isEmpty || stored.contexts.any fun context =>
        contextIds.contains context.id && decide (context.lifecycle = .active)

/-- `WhereClause::from_filter`: the conjunction of the SQL conditions. -/
def whereClause [Host] (filter : MemoryFilter) (caller : Option String) (now : Instant)
    (stored : StoredMemory) : Bool :=
  (stored.columns.expiresAt.all fun expiry =>
    decide (Host.toRfc3339 now < Host.toRfc3339 expiry)) &&
    sqlTimeRange filter stored.columns.createdAt &&
    matchesProvenance filter stored.columns.provenance && sqlContexts filter stored &&
    (filter.textSearch.all fun text => likeContains stored.columns.content text) &&
    (filter.hasEmbedding.all fun wanted => stored.columns.hasEmbedding == wanted) &&
    matchesTags filter stored.columns.tags &&
    (filter.memoryType.all fun wanted => stored.columns.memoryType == wanted) &&
    (filter.includeSuperseded.getD false || stored.columns.supersededBy.isNone) &&
    matchesEntities filter stored.entities &&
    (caller.isSome || decide (stored.columns.accessPolicy = .publicPolicy))

/-! ## Read paths -/

section Paths

variable [Host]

/-- A row of `list_with_paging`. -/
def listOutcome (filter : MemoryFilter) (caller : Option String) (now : Instant)
    (stored : StoredMemory) : Option Memory :=
  if whereClause filter caller now stored then
    (applyAccessPolicyForFilter stored.hydrated filter caller now).bind fun memory =>
      memory.applyAccessPolicy caller
  else none

/-- A row of `count_with_access_filter`. -/
def countOutcome (filter : MemoryFilter) (caller : Option String) (now : Instant)
    (stored : StoredMemory) : Option Memory :=
  if whereClause filter caller now stored then
    applyAccessPolicyForFilter (stored.fetched filter) filter caller now
  else none

/-- A row of `text_search_scan`. -/
def textOutcome (query : String) (filter : MemoryFilter) (caller : Option String) (now : Instant)
    (stored : StoredMemory) : Option Memory :=
  if likeContains stored.columns.content query && whereClause filter caller now stored then
    (applyAccessPolicyForFilter stored.hydrated filter caller now).bind fun memory =>
      if memory.contentSearchableBy caller then memory.applyAccessPolicy caller else none
  else none

/-- A fetched row of the full-text and vector paths: the content gate, the
filter on the visible view, late hydration, and the policy once more. -/
def searchedOutcome (filter : MemoryFilter) (caller : Option String) (now : Instant)
    (stored : StoredMemory) : Option Memory :=
  let memory := stored.fetched filter
  if memory.contentSearchableBy caller then
    (applyAccessPolicyForFilter memory filter caller now).bind fun visible =>
      let hydrated :=
        if needsEntityHydration filter then visible
        else visible.withEntities stored.entities
      hydrated.applyAccessPolicy caller
  else none

/-- A row of `fts_search_scan`; what the full-text index matches is a parameter. -/
def ftsOutcome (contentMatch : String → Bool) (filter : MemoryFilter) (caller : Option String)
    (now : Instant) (stored : StoredMemory) : Option Memory :=
  if contentMatch stored.columns.content && whereClause filter caller now stored then
    searchedOutcome filter caller now stored
  else none

/-- A row of `post_filter_results`, with the candidate condition of the vector
query: a filter with contexts selects candidates by the SQL conditions. -/
def vectorOutcome {δ : Type} [LE δ] [DecidableRel (α := δ) (· ≤ ·)] (distance : Embedding → δ)
    (maxDistance : Option δ) (filter : MemoryFilter) (caller : Option String) (now : Instant)
    (stored : StoredMemory) : Option Memory :=
  let prefiltered := filter.contextIds.isSome ||
    filter.legacyContextIdsAny.any fun contextIds => !contextIds.isEmpty
  let candidate := stored.vector.isSome && (!prefiltered || whereClause filter caller now stored)
  let near := maxDistance.all fun threshold =>
    stored.vector.any fun vector => decide (distance vector ≤ threshold)
  if candidate && near then searchedOutcome filter caller now stored else none

end Paths

end LocalHold
