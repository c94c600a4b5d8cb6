import LocalHold.Coding.Placeholders
import LocalHold.Store.WhereClause

/-!
# The text of a statement

`WhereClause` and `SetClauseBuilder` collect clauses, the values they bind and the
number of the next placeholder, in step and by hand.  The clauses are templates
numbered one after another, and every statement that is put together from them
numbers its placeholders from one, in the order in which it binds its values.
-/

namespace LocalHold

open Coding

/-! ## Clauses in step with their values -/

/-- A value bound to a placeholder. -/
inductive SqlValue where
  | text (value : String)
  | integer (value : Int)
  | score (value : UnitScore)
  /-- The text of a document. -/
  | json (document : Json)
  | null
  | blob (values : List Component)

/-- The fields that `WhereClause` and `SetClauseBuilder` have in common: clauses,
values and the next number. -/
structure ClauseBuilder (ν : Type) where
  clauses : List String
  values : List ν
  nextIdx : Nat

namespace ClauseBuilder

variable {ν α : Type}

/-- No clause, and the number of the first placeholder. -/
def new (start : Nat) : ClauseBuilder ν :=
  ⟨[], [], start⟩

/-- `push_str`, `push` and `push_expr`: a clause with one placeholder. -/
def push (builder : ClauseBuilder ν) (before after : String) (value : ν) : ClauseBuilder ν :=
  ⟨builder.clauses ++ [before ++ placeholder builder.nextIdx ++ after], builder.values ++ [value],
    builder.nextIdx + 1⟩

/-- `push_literal`: a clause without a placeholder. -/
def pushLiteral (builder : ClauseBuilder ν) (clause : String) : ClauseBuilder ν :=
  { builder with clauses := builder.clauses ++ [clause] }

/-- A clause with one placeholder for each value of a list. -/
def pushList (builder : ClauseBuilder ν) (before after : String) (items : List ν) :
    ClauseBuilder ν :=
  let placeholders := (List.range items.length).map fun offset =>
    placeholder (builder.nextIdx + offset)
  ⟨builder.clauses ++ [before ++ ", ".intercalate placeholders ++ after], builder.values ++ items,
    builder.nextIdx + items.length⟩

/-- A clause for an option that is set. -/
def pushSome (builder : ClauseBuilder ν) (value : Option α) (before after : String)
    (encode : α → ν) : ClauseBuilder ν :=
  match value with
  | none => builder
  | some value => builder.push before after (encode value)

/-- A clause for an option that lists something. -/
def pushListed (builder : ClauseBuilder ν) (value : Option (List α)) (before after : String)
    (encode : α → ν) : ClauseBuilder ν :=
  match value with
  | none => builder
  | some items =>
      if items.isEmpty then builder else builder.pushList before after (items.map encode)

/-- A fixed clause under a condition. -/
def pushWhen (builder : ClauseBuilder ν) (condition : Bool) (clause : String) :
    ClauseBuilder ν :=
  if condition then builder.pushLiteral clause else builder

end ClauseBuilder

/-! ## The `WHERE` clause -/

/-- `WhereClause`; its parameters are texts. -/
abbrev WhereClause : Type :=
  ClauseBuilder String

/-- `context_ids_json`. -/
def contextIdsJson (contextIds : List ContextId) : String :=
  "[" ++ ",".intercalate (contextIds.map fun id => "\"" ++ id.display ++ "\"") ++ "]"

/-- The pattern of a text search. -/
def searchPattern (text : String) : String :=
  "%" ++ escapeLike text ++ "%"

/-- A memory has an active context. -/
def governedClause : String :=
  "EXISTS (
                    SELECT 1
                    FROM memory_contexts AS governed_membership
                    JOIN contexts AS governed_context
                      ON governed_context.id = governed_membership.context_id
                    WHERE governed_membership.memory_id = memories.id
                      AND governed_context.lifecycle = 'active'
                )"

/-- `WhereClause::from_filter`. -/
def WhereClause.fromFilter [Host] (filter : MemoryFilter) (caller : Option String) (start : Nat)
    (now : Instant) : WhereClause :=
  let wc : WhereClause := .new start
  let wc := wc.push "(expires_at IS NULL OR expires_at > " ")" (Host.toRfc3339 now)
  let wc := wc.pushSome (filter.timeRange.bind (·.after)) "created_at >= " "" Host.toRfc3339
  let wc := wc.pushSome (filter.timeRange.bind (·.before)) "created_at < " "" Host.toRfc3339
  let wc := wc.pushSome filter.agentLabel "json_extract(provenance, '$.source_agent') = " "" id
  let wc := wc.pushSome filter.scope "json_extract(provenance, '$.source_conversation') = " "" id
  let wc := wc.pushSome filter.originScope
    ("COALESCE(json_extract(provenance, '$.origin_conversation'), " ++
      "json_extract(provenance, '$.source_conversation')) = ") "" id
  let wc := wc.pushListed filter.scopesAny
    "json_extract(provenance, '$.source_conversation') IN (" ")" id
  let wc := wc.pushWhen filter.contextIds.isSome governedClause
  let wc := wc.pushSome (filter.contextIds.filter fun contextIds => !contextIds.isEmpty)
    "NOT EXISTS (
                        SELECT 1
                        FROM memory_contexts AS attached_membership
                        JOIN contexts AS attached_context
                          ON attached_context.id = attached_membership.context_id
                        WHERE attached_membership.memory_id = memories.id
                          AND attached_context.lifecycle = 'active'
                          AND NOT EXISTS (
                              SELECT 1
                              FROM memory_contexts AS compatible_membership
                              JOIN contexts AS compatible_context
                                ON compatible_context.id = compatible_membership.context_id
                              WHERE compatible_membership.memory_id = memories.id
                                AND compatible_context.kind = attached_context.kind
                                AND compatible_context.lifecycle = 'active'
                                AND compatible_membership.context_id IN (
                                    SELECT CAST(value AS TEXT) FROM json_each("
    ")
                                )
                          )
                    )" contextIdsJson
  let wc := wc.pushSome (filter.legacyContextIdsAny.filter fun contextIds => !contextIds.isEmpty)
    "memories.id IN (
                    SELECT legacy_membership.memory_id
                    FROM memory_contexts AS legacy_membership INDEXED BY idx_memory_contexts_context
                    JOIN contexts AS legacy_context
                      ON legacy_context.id = legacy_membership.context_id
                    WHERE legacy_membership.context_id IN (
                        SELECT CAST(value AS TEXT) FROM json_each("
    ")
                    )
                      AND legacy_context.lifecycle = 'active'
                )" contextIdsJson
  let wc := wc.pushSome filter.textSearch "content LIKE " " ESCAPE '\\'" searchPattern
  let wc := wc.pushSome filter.hasEmbedding "has_embedding = " "" fun wanted =>
    if wanted then "1" else "0"
  let wc := wc.pushListed filter.tags
    "EXISTS (SELECT 1 FROM json_each(tags) AS t WHERE t.value IN (" "))" id
  let wc := wc.pushSome filter.memoryType "memory_type = " "" MemoryType.display
  let wc := wc.pushWhen (!filter.includeSuperseded.getD false) "superseded_by IS NULL"
  let wc := wc.pushSome filter.entity
    ("EXISTS (SELECT 1 FROM memory_entities me WHERE me.memory_id = memories.id " ++
      "AND me.entity = ") ")" id
  let wc := wc.pushListed filter.entitiesAny
    ("EXISTS (SELECT 1 FROM memory_entities me WHERE me.memory_id = memories.id " ++
      "AND me.entity IN (") "))" id
  let wc := wc.pushSome filter.entityType
    ("EXISTS (SELECT 1 FROM memory_entities me WHERE me.memory_id = memories.id " ++
      "AND me.entity_type = ") ")" id
  wc.pushWhen caller.isNone "json_extract(access_policy, '$.type') = 'public'"

/-- `WhereClause::to_where_sql`. -/
def WhereClause.toWhereSql (wc : WhereClause) : String :=
  if wc.clauses.isEmpty then "" else " WHERE " ++ " AND ".intercalate wc.clauses

/-- `WhereClause::to_where_sql_with_extra`. -/
def WhereClause.toWhereSqlWithExtra (wc : WhereClause) : Option String → String
  | none => wc.toWhereSql
  | some extra => " WHERE " ++ " AND ".intercalate (extra :: wc.clauses)

/-- `WhereClause::bind_params`. -/
def WhereClause.bindParams (wc : WhereClause) (extraParams : List String) (limit offset : Int) :
    List SqlValue :=
  extraParams.map .text ++ wc.values.map .text ++ [.integer limit, .integer offset]

/-! ## Statements -/

/-- The text of a statement and the values bound to it. -/
structure BoundStatement where
  sql : String
  bindings : List SqlValue

/-- `COLUMNS`. -/
def memoryColumnNames : List String :=
  ["id", "content", "tags", "provenance", "access_policy", "created_at", "expires_at",
    "has_embedding", "memory_type", "importance", "impression_count", "last_impressed_at",
    "superseded_by", "activity_mass", "last_used_at", "updated_at", "confidence",
    "record_revision"]

/-- `MEMORY_COLUMNS`. -/
def memoryColumns : String :=
  ", ".intercalate memoryColumnNames

/-- `PREFIXED_COLUMNS`. -/
def prefixedColumns : String :=
  ", ".intercalate (memoryColumnNames.map fun column => "m." ++ column)

/-- The page statement of `paged_scan_loop`. -/
def pagedScanStatement [Host] (filter : MemoryFilter) (caller : Option String) (now : Instant)
    (extraWhere : Option String) (extraParams : List String) (pageSize offset : Int) :
    BoundStatement :=
  let wc := WhereClause.fromFilter filter caller (extraParams.length + 1) now
  { sql := "SELECT " ++ memoryColumns ++ " FROM memories" ++ wc.toWhereSqlWithExtra extraWhere ++
      " ORDER BY created_at DESC, id DESC LIMIT " ++ placeholder wc.nextIdx ++ " OFFSET " ++
      placeholder (wc.nextIdx + 1)
    bindings := wc.bindParams extraParams pageSize offset }

/-- The statement of `ScanConfig::run_hydrated` and `run_pages`. -/
def listStatement [Host] (filter : MemoryFilter) (caller : Option String) (now : Instant)
    (pageSize offset : Int) : BoundStatement :=
  pagedScanStatement filter caller now none [] pageSize offset

/-- The statement of `text_search_scan`. -/
def textSearchStatement [Host] (query : String) (filter : MemoryFilter) (caller : Option String)
    (now : Instant) (pageSize offset : Int) : BoundStatement :=
  pagedScanStatement filter caller now (some ("content LIKE " ++ placeholder 1 ++ " ESCAPE '\\'"))
    [searchPattern query] pageSize offset

/-- The statement of `fts_search_scan`. -/
def ftsSearchStatement [Host] (ftsQuery : String) (filter : MemoryFilter) (caller : Option String)
    (now : Instant) (pageSize offset : Int) : BoundStatement :=
  let wc := WhereClause.fromFilter filter caller 2 now
  { sql := "SELECT " ++ prefixedColumns ++ ", fts.rank FROM memory_fts fts " ++
      "JOIN memories m ON m.rowid = fts.rowid WHERE memory_fts MATCH " ++ placeholder 1 ++ "
           AND m.id IN (SELECT memories.id FROM memories" ++ wc.toWhereSql ++
      ") ORDER BY fts.rank, m.created_at DESC, m.id DESC LIMIT " ++ placeholder wc.nextIdx ++
      " OFFSET " ++ placeholder (wc.nextIdx + 1)
    bindings := wc.bindParams [ftsQuery] pageSize offset }

/-- `filtered_embedding_search_sql` up to the embedding. -/
def nearestRows : String :=
  "SELECT embedding_map.memory_id, knn.distance
         FROM (
             SELECT rowid, distance
             FROM memory_embeddings
             WHERE embedding MATCH "

/-- `filtered_embedding_search_sql` from the embedding to the `WHERE` clause. -/
def candidateRows : String :=
  "
               AND rowid IN (
                   SELECT candidate_embedding_map.vec_rowid
                   FROM memories
                   JOIN memory_embedding_map AS candidate_embedding_map
                     ON candidate_embedding_map.memory_id = memories.id"

/-- `filtered_embedding_search_sql` from the `WHERE` clause to the limit. -/
def byDistance : String :=
  "
               )
             ORDER BY distance
             LIMIT "

/-- `filtered_embedding_search_sql` behind the limit. -/
def nearestMemories : String :=
  "
         ) AS knn
         JOIN memory_embedding_map AS embedding_map
           ON embedding_map.vec_rowid = knn.rowid
         ORDER BY knn.distance, embedding_map.memory_id"

/-- The statement of `filtered_embedding_search_loop`. -/
def filteredEmbeddingSearchStatement [Host] (embedding : List Component) (filter : MemoryFilter)
    (caller : Option String) (now : Instant) (candidateLimit : Int) : BoundStatement :=
  let wc := WhereClause.fromFilter filter caller 2 now
  { sql := nearestRows ++ placeholder 1 ++ candidateRows ++ wc.toWhereSql ++ byDistance ++
      placeholder wc.nextIdx ++ nearestMemories
    bindings := .blob embedding :: wc.values.map .text ++ [.integer candidateLimit] }

/-! ## The `SET` clause -/

/-- `SetClauseBuilder`. -/
abbrev SetClauseBuilder : Type :=
  ClauseBuilder SqlValue

/-- `build_set_clause`. -/
def buildSetClause [Host] (update : MemoryUpdate) (now : Instant) : SetClauseBuilder :=
  let builder : SetClauseBuilder := .new 1
  let builder := builder.pushSome update.content "content = " "" .text
  -- Content changed: the embedding is stale and its revision advances.
  let builder := builder.pushWhen update.content.isSome "has_embedding = 0"
  let builder := builder.pushWhen update.content.isSome
    "embedding_revision = embedding_revision + 1"
  let builder := builder.pushWhen update.content.isSome "embedding_claimed_at = NULL"
  let builder := builder.pushWhen update.content.isSome "embedding_claim_token = NULL"
  let builder := builder.pushSome update.tags "tags = " "" fun tags =>
    .json (.array (tags.map .string))
  let builder := builder.pushSome update.accessPolicy "access_policy = " "" fun policy =>
    .json policy.document
  let builder := builder.pushSome update.importance "importance = " "" .score
  let builder := builder.pushSome update.expiresAt "expires_at = " "" fun expiresAt =>
    match expiresAt with
    | none => .null
    | some value => .text (Host.toRfc3339 value)
  let builder := builder.pushSome update.confidence "confidence = " "" .score
  let builder := builder.pushSome update.sourceConversation
    "provenance = json_set(provenance, '$.source_conversation', " ")" .text
  let builder := builder.pushSome (update.content.map fun _ => now) "updated_at = " "" fun now =>
    .text (Host.toRfc3339 now)
  builder.pushWhen update.hasColumnUpdates "record_revision = record_revision + 1"

/-- The row statement of `apply_update_inner`. -/
def updateStatement [Host] (id : String) (update : MemoryUpdate) (now : Instant) :
    BoundStatement :=
  let builder := buildSetClause update now
  if builder.clauses.isEmpty then
    -- Only the entities change, or nothing at all.
    { sql := if update.entities.isSome then
          "UPDATE memories SET record_revision = record_revision + 1 WHERE id = " ++ placeholder 1
        else "SELECT EXISTS(SELECT 1 FROM memories WHERE id = " ++ placeholder 1 ++ ")"
      bindings := [.text id] }
  else
    { sql := "UPDATE memories SET " ++ ", ".intercalate builder.clauses ++ " WHERE id = " ++
        placeholder builder.nextIdx
      bindings := builder.values ++ [.text id] }

end LocalHold
