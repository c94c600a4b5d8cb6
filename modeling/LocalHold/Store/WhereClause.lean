import LocalHold.Relational.Like
import LocalHold.Store.AccessPredicates
import LocalHold.Timestamps

/-!
# The SQL side of a filter

`WhereClause::from_filter` as a list of conditions on the stored columns: JSON
documents, timestamps as text, flags as numbers and the rows of the entity table.
Read in the three-valued logic of SQL the list accepts what the plain test of the
read paths accepts.
-/

namespace LocalHold

open Relational

/-! ## Stored columns -/

/-- The columns of a memory, and the rows of other tables that belong to it. -/
structure EncodedMemory where
  content : String
  tags : Json
  provenance : Json
  accessPolicy : Json
  createdAt : String
  expiresAt : Option String
  hasEmbedding : Nat
  memoryType : String
  supersededBy : Option String
  entities : List Entity
  contexts : List AttachedContext

/-- The stored name of a memory type. -/
def MemoryType.display : MemoryType → String
  | .semantic => "semantic"
  | .episodic => "episodic"
  | .procedural => "procedural"

theorem MemoryType.display_inj {first second : MemoryType} :
    first.display = second.display ↔ first = second := by
  cases first <;> cases second <;> decide

/-- The stored form of a flag, as a column and as a parameter. -/
def flagNumber (flag : Bool) : Nat :=
  if flag then 1 else 0

theorem flagNumber_inj {first second : Bool} :
    flagNumber first = flagNumber second ↔ first = second := by
  cases first <;> cases second <;> decide

/-- The columns in which a memory is stored. -/
def StoredMemory.encoded [Host] (stored : StoredMemory) : EncodedMemory where
  content := stored.columns.content
  tags := .array (stored.columns.tags.map .string)
  provenance := stored.columns.provenance.document
  accessPolicy := stored.columns.accessPolicy.document
  createdAt := Host.toRfc3339 stored.columns.createdAt
  expiresAt := stored.columns.expiresAt.map Host.toRfc3339
  hasEmbedding := flagNumber stored.columns.hasEmbedding
  memoryType := stored.columns.memoryType.display
  supersededBy := stored.columns.supersededBy.map MemoryId.display
  entities := stored.entities
  contexts := stored.contexts

/-- The values of `json_each(document)`. -/
def Json.values : Json → List (Option String)
  | .array items => items.map Json.text?
  | _ => []

@[simp]
theorem Json.values_strings (texts : List String) :
    (Json.array (texts.map .string)).values = texts.map some := by
  simp [Json.values, Json.text?, Function.comp_def]

@[simp]
theorem Provenance.extract_sourceConversation (provenance : Provenance) :
    provenance.document.extract "source_conversation" = provenance.sourceConversation := by
  cases agent : provenance.sourceAgent <;> cases conversation : provenance.sourceConversation <;>
    cases origin : provenance.originConversation <;> cases user : provenance.sourceUser <;>
    simp [Provenance.document, optionalField, Json.extract, Json.member?, Json.text?, agent,
      conversation, origin, user]

@[simp]
theorem Provenance.extract_originConversation (provenance : Provenance) :
    provenance.document.extract "origin_conversation" = provenance.originConversation := by
  cases agent : provenance.sourceAgent <;> cases conversation : provenance.sourceConversation <;>
    cases origin : provenance.originConversation <;> cases user : provenance.sourceUser <;>
    simp [Provenance.document, optionalField, Json.extract, Json.member?, Json.text?, agent,
      conversation, origin, user]

/-! ## Conditions -/

/-- A condition of a `WHERE` clause. -/
abbrev Condition := EncodedMemory → Truth

/-- A condition that is added when the filter has a value. -/
def whenSome {α : Type} (value : Option α) (condition : α → Condition) : List Condition :=
  value.toList.map condition

/-- A condition that is added when the filter has a value that lists something. -/
def whenListed {α : Type} (value : Option (List α)) (condition : List α → Condition) :
    List Condition :=
  whenSome (value.filter fun items => !items.isEmpty) condition

/-- `escape_like`. -/
def escapeLike (text : String) : String :=
  String.ofList (escapeLetters text.toList)

/-- The conditions on the creation time. -/
def timeConditions [Host] (filter : MemoryFilter) : List Condition :=
  whenSome (filter.timeRange.bind (·.after)) (fun after row =>
      Truth.atMost (some (Host.toRfc3339 after)) (some row.createdAt)) ++
    whenSome (filter.timeRange.bind (·.before)) fun before row =>
      Truth.less (some row.createdAt) (some (Host.toRfc3339 before))

/-- The conditions on the provenance document. -/
def provenanceConditions (filter : MemoryFilter) : List Condition :=
  whenSome filter.agentLabel (fun agent row =>
      Truth.equals (row.provenance.extract "source_agent") (some agent)) ++
    whenSome filter.scope (fun scope row =>
      Truth.equals (row.provenance.extract "source_conversation") (some scope)) ++
    whenSome filter.originScope (fun scope row =>
      Truth.equals ((row.provenance.extract "origin_conversation").or
        (row.provenance.extract "source_conversation")) (some scope)) ++
    whenListed filter.scopesAny fun scopes row =>
      Truth.isIn (row.provenance.extract "source_conversation") scopes

/-- The conditions on governed memberships. -/
def contextConditions (filter : MemoryFilter) : List Condition :=
  whenSome filter.contextIds (fun _ row =>
      some (row.contexts.any fun context => decide (context.lifecycle = .active))) ++
    whenListed filter.contextIds (fun contextIds row =>
      some (contextsCompatible contextIds row.contexts)) ++
    whenListed filter.legacyContextIdsAny fun contextIds row =>
      some (row.contexts.any fun context =>
        contextIds.contains context.id && decide (context.lifecycle = .active))

/-- The conditions on the rows of the entity table. -/
def entityConditions (filter : MemoryFilter) : List Condition :=
  whenSome filter.entity (fun name row =>
      Truth.someRow row.entities fun entity => Truth.equals (some entity.name) (some name)) ++
    whenListed filter.entitiesAny (fun names row =>
      Truth.someRow row.entities fun entity => Truth.isIn (some entity.name) names) ++
    whenSome filter.entityType fun kind row =>
      Truth.someRow row.entities fun entity => Truth.equals (some entity.entityType) (some kind)

/-- `WhereClause::from_filter`. -/
def fromFilter [Host] (filter : MemoryFilter) (caller : Option String) (now : Instant) :
    List Condition :=
  [fun row => (Truth.isNull row.expiresAt).disj
      (Truth.less (some (Host.toRfc3339 now)) row.expiresAt)] ++
    timeConditions filter ++ provenanceConditions filter ++ contextConditions filter ++
    whenSome filter.textSearch (fun text row =>
      some (likeMatch ('%' :: ((escapeLike text).toList ++ ['%'])) row.content.toList)) ++
    whenSome filter.hasEmbedding (fun wanted row =>
      Truth.equals (some row.hasEmbedding) (some (flagNumber wanted))) ++
    whenListed filter.tags (fun tags row =>
      Truth.someRow row.tags.values fun value => Truth.isIn value tags) ++
    whenSome filter.memoryType (fun wanted row =>
      Truth.equals (some row.memoryType) (some wanted.display)) ++
    (if filter.includeSuperseded.getD false then [] else
      [fun row => Truth.isNull row.supersededBy]) ++
    entityConditions filter ++
    if caller.isNone then [fun row => anonymousCondition row.accessPolicy] else []

/-- Whether a `WHERE` clause with these conditions selects a row. -/
def selects (conditions : List Condition) (row : EncodedMemory) : Bool :=
  (Truth.allOf (conditions.map fun condition => condition row)).accepts

/-! ## What the conditions accept -/

section Accepts

variable {α : Type} {row : EncodedMemory}

@[simp]
theorem selects_append (first second : List Condition) :
    selects (first ++ second) row = (selects first row && selects second row) := by
  simp only [selects, Truth.accepts_allOf, List.map_append, List.all_append]

@[simp]
theorem selects_nil : selects [] row = true :=
  rfl

@[simp]
theorem selects_singleton (condition : Condition) :
    selects [condition] row = (condition row).accepts := by
  simp only [selects, Truth.accepts_allOf, List.map_cons, List.map_nil, List.all_cons,
    List.all_nil, Bool.and_true]

@[simp]
theorem selects_whenSome (value : Option α) (condition : α → Condition) :
    selects (whenSome value condition) row =
      value.all fun present => (condition present row).accepts := by
  cases value with
  | none => rfl
  | some present => exact selects_singleton _

@[simp]
theorem selects_whenListed (value : Option (List α)) (condition : List α → Condition) :
    selects (whenListed value condition) row =
      value.all fun items => items.isEmpty || (condition items row).accepts := by
  rw [whenListed, selects_whenSome]
  cases value with
  | none => rfl
  | some items => cases items <;> simp [Option.filter]

end Accepts

theorem selects_provenanceConditions (filter : MemoryFilter) {row : EncodedMemory}
    {provenance : Provenance} (document : row.provenance = provenance.document) :
    selects (provenanceConditions filter) row = matchesProvenance filter provenance := by
  simp only [provenanceConditions, selects_append, selects_whenSome, selects_whenListed, document,
    Truth.accepts_equals_some, Truth.accepts_isIn, Provenance.extract_sourceAgent,
    Provenance.extract_sourceConversation, Provenance.extract_originConversation,
    matchesProvenance, matchesAny, beq_eq_decide]

theorem selects_entityConditions (filter : MemoryFilter) (row : EncodedMemory) :
    selects (entityConditions filter) row = matchesEntities filter row.entities := by
  have swap : ∀ names : List String,
      (row.entities.any fun entity => names.any fun name => decide (entity.name = name)) =
        names.any fun name => row.entities.any fun entity => decide (entity.name = name) := by
    intro names
    rw [Bool.eq_iff_iff]
    simp only [List.any_eq_true]
    constructor
    · rintro ⟨entity, entityMem, name, nameMem, same⟩
      exact ⟨name, nameMem, entity, entityMem, same⟩
    · rintro ⟨name, nameMem, entity, entityMem, same⟩
      exact ⟨entity, entityMem, name, nameMem, same⟩
  simp only [entityConditions, selects_append, selects_whenSome, selects_whenListed,
    Truth.accepts_someRow, Truth.accepts_equals_some, Truth.accepts_isIn, Option.some.injEq,
    matchesEntities, matchesAny, beq_eq_decide, swap]

theorem selects_contextConditions (filter : MemoryFilter) {row : EncodedMemory}
    {stored : StoredMemory} (contexts : row.contexts = stored.contexts) :
    selects (contextConditions filter) row = sqlContexts filter stored := by
  simp only [contextConditions, selects_append, selects_whenSome, selects_whenListed,
    Truth.accepts_some, contexts, sqlContexts, StoredMemory.governed]
  cases filter.contextIds <;> rfl

/-- The pattern of a text search matches the texts that contain it. -/
theorem likeMatch_escapeLike (text content : String) :
    likeMatch ('%' :: ((escapeLike text).toList ++ ['%'])) content.toList =
      likeContains content text := by
  rw [Bool.eq_iff_iff, escapeLike, String.toList_ofList, likeMatch_contains_iff]
  simp only [likeContains, asciiLowercase, String.toList_ofList, decide_eq_true_eq]

theorem any_tags (wanted tags : List String) :
    ((tags.map some).any fun value => wanted.any fun tag => decide (value = some tag)) =
      wanted.any fun tag => tags.contains tag := by
  rw [Bool.eq_iff_iff]
  simp only [List.any_eq_true, List.mem_map, decide_eq_true_iff, List.contains_iff_mem]
  constructor
  · rintro ⟨_, ⟨tag, tagMem, rfl⟩, wantedTag, wantedMem, same⟩
    cases same
    exact ⟨tag, wantedMem, tagMem⟩
  · rintro ⟨tag, wantedMem, tagMem⟩
    exact ⟨some tag, ⟨tag, tagMem, rfl⟩, tag, wantedMem, rfl⟩

section Clause

variable [Host]

theorem selects_timeConditions (filter : MemoryFilter) (createdAt : Instant)
    {row : EncodedMemory} (text : row.createdAt = Host.toRfc3339 createdAt) :
    selects (timeConditions filter) row = sqlTimeRange filter createdAt := by
  simp only [timeConditions, selects_append, selects_whenSome, text, sqlTimeRange]
  cases filter.timeRange with
  | none => rfl
  | some range => cases after : range.after <;> cases before : range.before <;> simp [after, before] <;> rfl

/-- The clause selects what the plain test of the read paths accepts. -/
theorem selects_fromFilter (filter : MemoryFilter) (caller : Option String) (now : Instant)
    (stored : StoredMemory) :
    selects (fromFilter filter caller now) stored.encoded =
      whereClause filter caller now stored := by
  have expiry : (stored.encoded.expiresAt.isNone || stored.encoded.expiresAt.any fun expiry =>
        decide (Host.toRfc3339 now < expiry)) =
      stored.columns.expiresAt.all fun expiry =>
        decide (Host.toRfc3339 now < Host.toRfc3339 expiry) := by
    simp only [StoredMemory.encoded]
    cases stored.columns.expiresAt <;> rfl
  have embedding : ∀ wanted, decide (stored.encoded.hasEmbedding = flagNumber wanted) =
      (stored.columns.hasEmbedding == wanted) := by
    intro wanted
    rw [beq_eq_decide]
    exact decide_eq_decide.mpr flagNumber_inj
  have kind : ∀ wanted : MemoryType, decide (stored.encoded.memoryType = wanted.display) =
      (stored.columns.memoryType == wanted) := by
    intro wanted
    rw [beq_eq_decide]
    exact decide_eq_decide.mpr MemoryType.display_inj
  have tags : ∀ wanted : List String,
      (stored.encoded.tags.values.any fun value =>
        wanted.any fun tag => decide (value = some tag)) =
      wanted.any fun tag => stored.columns.tags.contains tag := by
    intro wanted
    rw [← any_tags, StoredMemory.encoded, Json.values_strings]
  have superseded : selects (if filter.includeSuperseded.getD false then [] else
        [fun row => Truth.isNull row.supersededBy]) stored.encoded =
      (filter.includeSuperseded.getD false || stored.columns.supersededBy.isNone) := by
    cases filter.includeSuperseded.getD false
    · simp [StoredMemory.encoded]
    · rfl
  have anonymous : selects (if caller.isNone then
        [fun row => anonymousCondition row.accessPolicy] else []) stored.encoded =
      (caller.isSome || decide (stored.columns.accessPolicy = .publicPolicy)) := by
    cases caller with
    | some _ => rfl
    | none =>
        simp only [Option.isNone_none, if_true, selects_singleton, StoredMemory.encoded]
        cases stored.columns.accessPolicy <;> simp [anonymousCondition]
  have times : selects (timeConditions filter) stored.encoded =
      sqlTimeRange filter stored.columns.createdAt := selects_timeConditions _ _ rfl
  have provenance : selects (provenanceConditions filter) stored.encoded =
      matchesProvenance filter stored.columns.provenance := selects_provenanceConditions _ rfl
  have contexts : selects (contextConditions filter) stored.encoded =
      sqlContexts filter stored := selects_contextConditions _ rfl
  rw [fromFilter, whereClause]
  simp only [selects_append, selects_singleton, selects_whenSome, selects_whenListed,
    Truth.accepts_disj, Truth.accepts_isNull, Truth.accepts_less_some_left,
    Truth.accepts_equals_some, Truth.accepts_someRow, Truth.accepts_isIn, Truth.accepts_some,
    Option.some.injEq, expiry, embedding, kind, tags, superseded, anonymous, times, provenance,
    contexts, selects_entityConditions, likeMatch_escapeLike, matchesTags, matchesAny]
  rfl

end Clause

end LocalHold
