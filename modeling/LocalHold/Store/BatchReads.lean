import LocalHold.Store.AccessPredicates
import LocalHold.Store.Hydration
import LocalHold.Timestamps
import LocalHold.Transition.Checked

/-!
# Batch reads

`get_batch_by_ids` and `get_memory_contexts_batch` read many memories with one
query.  Timestamps are stored as text and are read back with every row: a text
that the parser refuses fails the read of its memory, and the whole batch that
names it.
-/

namespace LocalHold

open Relational Transition.Checked

section Batch

variable [Host]

section Reads

variable (parse : String → Option Instant)

/-! ## Timestamps of a row -/

/-- The display form of the error for a text that does not start with a digit. -/
def invalidCharacters : String := "input contains invalid characters"

/-- Read a stored timestamp back. -/
def readTimestamp (invalid : String) (stored : Instant) : Except StoreError Instant :=
  match parse (Host.toRfc3339 stored) with
  | some instant => .ok instant
  | none => .error (.serialization (invalid ++ ": " ++ invalidCharacters))

/-- `row_to_memory`, with the timestamps read from their texts. -/
def readMemory (row : MemoryRow) : Except StoreError Memory := do
  let createdAt ← readTimestamp parse "invalid datetime" row.createdAt
  let expiresAt ← row.expiresAt.mapM (readTimestamp parse "invalid expires_at")
  let lastImpressedAt ← row.lastImpressedAt.mapM (readTimestamp parse "invalid last_impressed_at")
  let lastUsedAt ← row.lastUsedAt.mapM (readTimestamp parse "invalid last_used_at")
  let updatedAt ← readTimestamp parse "invalid updated_at" row.updatedAt
  return { row.toMemory with createdAt, expiresAt, lastImpressedAt, lastUsedAt, updatedAt }

/-- `parse_context_row`. -/
def parseContextRow (context : ContextDefinition) : Except StoreError ContextDefinition := do
  let createdAt ← readTimestamp parse "invalid contexts.created_at timestamp" context.createdAt
  let updatedAt ← readTimestamp parse "invalid contexts.updated_at timestamp" context.updatedAt
  return { context with createdAt, updatedAt }

/-! ## Single reads -/

/-- `fetch_memory_by_id`, with the timestamps read from their texts. -/
def Db.fetchMemory (db : Db) (id : MemoryId) : Except StoreError (Option Memory) :=
  match db.memories.find? id with
  | none => .ok none
  | some row => (readMemory parse row).map some

/-- `get_by_id`. -/
def Db.getById (db : Db) (id : MemoryId) (caller : Option String) (now : Instant) :
    Except StoreError (Option Memory) := do
  match ← db.fetchMemory parse id with
  | none => return none
  | some memory =>
      if memory.expiredAt now then return none
      else return (memory.withEntities (db.entitiesOf id)).applyAccessPolicy caller

/-- A membership as it is read. -/
def readMembership (membership : MemoryContext) : Except StoreError MemoryContext :=
  (parseContextRow parse membership.context).map fun context => ⟨context, membership.ordinal⟩

/-- `get_memory_contexts`, with the timestamps read from their texts. -/
def Db.readMemoryContexts (db : Db) (id : MemoryId) (principal : String) (now : Instant) :
    Except StoreError (List MemoryContext) := do
  match ← db.fetchMemory parse id with
  | none => .error (memoryNotFound id)
  | some memory =>
      if memory.expiredAt now || memory.checkAccessLevel (some principal) == .denied then
        .error (memoryNotFound id)
      else (db.visibleMemberships id principal).mapM (readMembership parse)

/-! ## Batch reads -/

/-- How a row that cannot be converted fails a query. -/
def conversionFailure (error : StoreError) : StoreError :=
  .database ("Conversion error from type Text at index: 0, " ++ error.display)

/-- `MemoryMap`. -/
abbrev MemoryMap : Type :=
  MemoryId → Option Memory

/-- `get_batch_by_ids`. -/
def Db.getBatchByIds (db : Db) (ids : List MemoryId) (caller : Option String) (now : Instant) :
    Except StoreError MemoryMap :=
  if ids.isEmpty then
    .ok fun _ => none
  else do
    let memories ← (db.memories.select fun row => ids.contains row.id).mapM fun row =>
      (readMemory parse row).mapError conversionFailure
    let retained := memories.filter fun memory =>
      memory.expiresAt.all fun expiresAt => decide (now < expiresAt)
    return collect ((db.hydrateEntitiesForMemories retained).filterMap fun memory =>
      (memory.applyAccessPolicy caller).map fun visible => (visible.id, visible))

/-- A row of the batch query over memberships. -/
structure MembershipBatchRow where
  membership : MembershipRow
  context : ContextDefinition
  provenance : Provenance
  accessPolicy : AccessPolicy

/-- `expires_at IS NULL OR expires_at > ?`, on stored text. -/
def sqlUnexpired (now : Instant) (expiresAt : Option Instant) : Bool :=
  expiresAt.all fun expiry => decide (Host.toRfc3339 now < Host.toRfc3339 expiry)

/-- The join and the conditions of the batch query. -/
def Db.membershipBatchRow (db : Db) (principal : String) (now : Instant) (row : MembershipRow) :
    Option MembershipBatchRow :=
  (db.memories.find? row.memoryId).bind fun memory =>
    (db.contexts.find? row.contextId).bind fun stored =>
      if sqlUnexpired now memory.expiresAt && db.contextVisible stored.context principal then
        some ⟨row, stored.context, memory.provenance, memory.accessPolicy⟩
      else
        none

/-- The rows of the batch query. -/
def Db.membershipBatchRows (db : Db) (ids : List MemoryId) (principal : String) (now : Instant) :
    List MembershipBatchRow :=
  (orderBy (fun first second =>
      decide (first.memoryId.ulid < second.memoryId.ulid) ||
        (decide (first.memoryId.ulid = second.memoryId.ulid) &&
          decide (first.ordinal ≤ second.ordinal)))
    (db.memoryContexts.select fun row => ids.contains row.memoryId)).filterMap
      (db.membershipBatchRow principal now)

/-- `parse_sqlite_memory_context_batch_row`. -/
def parseMembershipBatchRow (principal : String) (row : MembershipBatchRow) :
    Except StoreError (Option (MemoryId × MemoryContext)) :=
  if !memoryReadAllowed row.provenance row.accessPolicy principal then
    .ok none
  else
    (readMembership parse ⟨row.context, row.membership.ordinal⟩).map fun membership =>
      some (row.membership.memoryId, membership)

/-- `append_memory_context`. -/
def appendMemoryContext (memberships : Groups MemoryId MemoryContext)
    (membership : Option (MemoryId × MemoryContext)) : Groups MemoryId MemoryContext :=
  match membership with
  | none => memberships
  | some entry => memberships.push entry

/-- `get_memory_contexts_batch`. -/
def Db.getMemoryContextsBatch (db : Db) (ids : List MemoryId) (principal : String)
    (now : Instant) : Except StoreError (Groups MemoryId MemoryContext) :=
  if ids.isEmpty then
    .ok Groups.empty
  else
    (db.membershipBatchRows ids principal now).foldlM
      (fun memberships row => do
        return appendMemoryContext memberships (← parseMembershipBatchRow parse principal row))
      Groups.empty

end Reads

/-! ## Readable rows -/

/-- The stored timestamps of a row that can be read back. -/
structure MemoryRow.FourDigitYears (row : MemoryRow) : Prop where
  created : FourDigitYear row.createdAt
  expires : ∀ instant ∈ row.expiresAt, FourDigitYear instant
  impressed : ∀ instant ∈ row.lastImpressedAt, FourDigitYear instant
  used : ∀ instant ∈ row.lastUsedAt, FourDigitYear instant
  updated : FourDigitYear row.updatedAt

/-- The stored timestamps of a context that can be read back. -/
structure ContextDefinition.FourDigitYears (context : ContextDefinition) : Prop where
  created : FourDigitYear context.createdAt
  updated : FourDigitYear context.updatedAt

section Readable

variable {parse : String → Option Instant} (reader : Rfc3339Reader parse)
  (clock : ∀ instant, Host.toRfc3339 instant = rfc3339 instant)

include reader clock

theorem readTimestamp_eq_ok_iff (invalid : String) (stored read : Instant) :
    readTimestamp parse invalid stored = .ok read ↔ FourDigitYear stored ∧ read = stored := by
  rw [readTimestamp, clock]
  by_cases fourDigit : FourDigitYear stored
  · rw [reader.parse_rfc3339 fourDigit]
    simp [fourDigit, eq_comm]
  · rw [reader.parse_signed fourDigit]
    simp [fourDigit]

theorem readTimestamps_eq_ok_iff (invalid : String) (stored read : Option Instant) :
    stored.mapM (readTimestamp parse invalid) = .ok read ↔
      (∀ instant ∈ stored, FourDigitYear instant) ∧ read = stored := by
  cases stored with
  | none =>
      change Except.ok none = Except.ok read ↔ _
      simp [eq_comm]
  | some instant =>
      change (readTimestamp parse invalid instant).map some = _ ↔ _
      rw [map_eq_ok]
      simp only [readTimestamp_eq_ok_iff reader clock]
      simp [eq_comm]

theorem readMemory_eq_ok_iff (row : MemoryRow) (memory : Memory) :
    readMemory parse row = .ok memory ↔ row.FourDigitYears ∧ memory = row.toMemory := by
  simp only [readMemory, bind_eq_ok, readTimestamp_eq_ok_iff reader clock,
    readTimestamps_eq_ok_iff reader clock]
  constructor
  · rintro ⟨_, ⟨created, rfl⟩, _, ⟨expires, rfl⟩, _, ⟨impressed, rfl⟩, _, ⟨used, rfl⟩, _,
      ⟨updated, rfl⟩, done⟩
    cases done
    exact ⟨⟨created, expires, impressed, used, updated⟩, rfl⟩
  · rintro ⟨years, rfl⟩
    exact ⟨_, ⟨years.created, rfl⟩, _, ⟨years.expires, rfl⟩, _, ⟨years.impressed, rfl⟩, _,
      ⟨years.used, rfl⟩, _, ⟨years.updated, rfl⟩, rfl⟩

theorem readMembership_eq_ok_iff (membership read : MemoryContext) :
    readMembership parse membership = .ok read ↔
      membership.context.FourDigitYears ∧ read = membership := by
  have readContext (context : ContextDefinition) : parseContextRow parse membership.context =
      .ok context ↔ membership.context.FourDigitYears ∧ context = membership.context := by
    simp only [parseContextRow, bind_eq_ok, readTimestamp_eq_ok_iff reader clock]
    constructor
    · rintro ⟨_, ⟨created, rfl⟩, _, ⟨updated, rfl⟩, done⟩
      cases done
      exact ⟨⟨created, updated⟩, rfl⟩
    · rintro ⟨years, rfl⟩
      exact ⟨_, ⟨years.created, rfl⟩, _, ⟨years.updated, rfl⟩, rfl⟩
  rw [readMembership, map_eq_ok]
  simp only [readContext]
  constructor
  · rintro ⟨_, ⟨years, rfl⟩, rfl⟩
    exact ⟨years, rfl⟩
  · rintro ⟨years, rfl⟩
    exact ⟨_, ⟨years, rfl⟩, rfl⟩

/-! ## Memories -/

variable {db : Db} {ids : List MemoryId} {id : MemoryId} {caller : Option String} {now : Instant}

/-- Every stored memory among the ids can be read back. -/
def Db.Readable (db : Db) (ids : List MemoryId) : Prop :=
  ∀ row ∈ db.memories, row.id ∈ ids → row.FourDigitYears

theorem fetchMemory_eq_ok_iff (fetched : Option Memory) :
    db.fetchMemory parse id = .ok fetched ↔
      (∀ row, db.memories.find? id = some row → row.FourDigitYears) ∧
        fetched = (db.memories.find? id).map MemoryRow.toMemory := by
  rw [Db.fetchMemory]
  cases found : db.memories.find? id with
  | none => simp [eq_comm]
  | some row =>
      dsimp only
      rw [map_eq_ok]
      simp only [readMemory_eq_ok_iff reader clock]
      simp [eq_comm]

theorem getById_eq_some_iff (view : Memory) :
    db.getById parse id caller now = .ok (some view) ↔
      ∃ row, db.memories.find? id = some row ∧ row.FourDigitYears ∧
        row.toMemory.expiredAt now = false ∧
        (db.stored row).hydrated.applyAccessPolicy caller = some view := by
  rw [Db.getById, bind_eq_ok]
  simp only [fetchMemory_eq_ok_iff reader clock]
  constructor
  · rintro ⟨_, ⟨readable, rfl⟩, ran⟩
    cases found : db.memories.find? id with
    | none =>
        rw [found] at ran
        cases ran
    | some row =>
        rw [found] at ran
        dsimp only [Option.map_some] at ran
        have rowId : row.id = id := Table.find?_key found
        split at ran
        · cases ran
        case isFalse live =>
          refine ⟨row, rfl, readable row found, by simpa using live, ?_⟩
          subst rowId
          exact Except.ok.inj ran
  · rintro ⟨row, found, readable, live, shown⟩
    have rowId : row.id = id := Table.find?_key found
    refine ⟨_, ⟨fun other otherFound => ?_, rfl⟩, ?_⟩
    · rw [found] at otherFound
      cases otherFound
      exact readable
    · rw [found]
      dsimp only [Option.map_some]
      rw [if_neg (by simp [live])]
      subst rowId
      exact congrArg Except.ok shown

/-- What the batch reads where it can read every row. -/
def Db.batchMap (db : Db) (ids : List MemoryId) (caller : Option String) (now : Instant) :
    MemoryMap :=
  collect ((db.memories.select fun row => ids.contains row.id && !row.toMemory.expiredAt now).filterMap
    fun row => ((db.stored row).hydrated.applyAccessPolicy caller).map fun visible =>
      (visible.id, visible))

omit [Host] reader clock in
theorem retains_eq_not_expiredAt (memory : Memory) :
    (memory.expiresAt.all fun expiresAt => decide (now < expiresAt)) = !memory.expiredAt now := by
  cases expires : memory.expiresAt with
  | none => simp [Memory.expiredAt, expires]
  | some expiry =>
      simp only [Memory.expiredAt, expires, Option.all_some, Option.any_some]
      rw [← decide_not, decide_eq_decide, not_le]

omit [Host] reader clock in
/-- The retained memories get their own entities. -/
theorem hydrateEntitiesForMemories_select (keep : MemoryRow → Bool) :
    db.hydrateEntitiesForMemories ((db.memories.select keep).map MemoryRow.toMemory) =
      (db.memories.select keep).map fun row => (db.stored row).hydrated := by
  have distinct : (((db.memories.select keep).map MemoryRow.toMemory).map Memory.id).Nodup := by
    rw [List.map_map]
    exact db.memories.nodup.sublist (List.filter_sublist.map _)
  have bare : ∀ memory ∈ (db.memories.select keep).map MemoryRow.toMemory,
      memory.withEntities [] = memory := by
    intro memory memoryMem
    obtain ⟨row, _, rfl⟩ := List.mem_map.mp memoryMem
    rfl
  rw [Db.hydrateEntitiesForMemories, Db.hydrateRows_eq distinct bare, List.map_map]
  rfl

theorem getBatchByIds_eq_ok_iff (map : MemoryMap) :
    db.getBatchByIds parse ids caller now = .ok map ↔
      db.Readable ids ∧ map = db.batchMap ids caller now := by
  rw [Db.getBatchByIds]
  split
  case isTrue empty =>
    rw [List.isEmpty_iff.mp empty]
    have nothing : db.batchMap [] caller now = fun _ => none := by
      funext id
      simp [Db.batchMap, Table.select, collect]
    rw [nothing]
    simp [Db.Readable, eq_comm]
  case isFalse =>
    have readRow (row : MemoryRow) (memory : Memory) :
        (readMemory parse row).mapError conversionFailure = .ok memory ↔
          row.FourDigitYears ∧ memory = row.toMemory := by
      rw [mapError_eq_ok, readMemory_eq_ok_iff reader clock]
    have retained : ((db.memories.select fun row => ids.contains row.id).map
        MemoryRow.toMemory).filter (fun memory =>
          memory.expiresAt.all fun expiresAt => decide (now < expiresAt)) =
        (db.memories.select fun row =>
          ids.contains row.id && !row.toMemory.expiredAt now).map MemoryRow.toMemory := by
      simp only [retains_eq_not_expiredAt]
      rw [List.filter_map, Table.select, Table.select, List.filter_filter]
      congr 2
      funext row
      exact Bool.and_comm _ _
    have result : (collect ((db.hydrateEntitiesForMemories (((db.memories.select fun row =>
        ids.contains row.id).map MemoryRow.toMemory).filter fun memory =>
          memory.expiresAt.all fun expiresAt => decide (now < expiresAt))).filterMap fun memory =>
            (memory.applyAccessPolicy caller).map fun visible => (visible.id, visible))) =
        db.batchMap ids caller now := by
      rw [retained, hydrateEntitiesForMemories_select, List.filterMap_map]
      rfl
    simp only [bind_eq_ok, mapM_eq_ok_iff readRow]
    constructor
    · rintro ⟨_, ⟨readable, rfl⟩, done⟩
      cases done
      refine ⟨fun row rowMem named => readable row ?_, result⟩
      exact Table.mem_select_iff.mpr ⟨rowMem, List.contains_iff_mem.mpr named⟩
    · rintro ⟨readable, rfl⟩
      refine ⟨_, ⟨fun row rowMem => ?_, rfl⟩, congrArg Except.ok result⟩
      obtain ⟨stored, named⟩ := Table.mem_select_iff.mp rowMem
      exact readable row stored (List.contains_iff_mem.mp named)

omit [Host] reader clock in
theorem batchMap_eq_some_iff (view : Memory) :
    db.batchMap ids caller now id = some view ↔
      id ∈ ids ∧ ∃ row, db.memories.find? id = some row ∧ row.toMemory.expiredAt now = false ∧
        (db.stored row).hydrated.applyAccessPolicy caller = some view := by
  have distinct : (((db.memories.select fun row =>
      ids.contains row.id && !row.toMemory.expiredAt now).filterMap fun row =>
        ((db.stored row).hydrated.applyAccessPolicy caller).map fun visible =>
          (visible.id, visible)).map Prod.fst).Nodup := by
    have distinctRows : ((db.memories.select fun row =>
        ids.contains row.id && !row.toMemory.expiredAt now).map MemoryRow.id).Nodup :=
      db.memories.nodup.sublist (List.filter_sublist.map _)
    refine distinctRows.sublist (Paging.map_filterMap_sublist (fun row entry shown => ?_) _)
    obtain ⟨visible, isVisible, rfl⟩ := Option.map_eq_some_iff.mp shown
    exact Memory.applyAccessPolicy_id isVisible
  rw [Db.batchMap, collect_eq_some_iff distinct, List.mem_filterMap]
  constructor
  · rintro ⟨row, rowMem, shown⟩
    obtain ⟨visible, isVisible, entry⟩ := Option.map_eq_some_iff.mp shown
    have visibleId : visible.id = row.id := Memory.applyAccessPolicy_id isVisible
    cases entry
    obtain ⟨stored, kept⟩ := Table.mem_select_iff.mp rowMem
    rw [Bool.and_eq_true, List.contains_iff_mem, Bool.not_eq_true'] at kept
    rw [visibleId]
    exact ⟨kept.1, row, Table.mem_iff_find?.mp stored, kept.2, isVisible⟩
  · rintro ⟨named, row, found, live, shown⟩
    have rowId : row.id = id := Table.find?_key found
    refine ⟨row, Table.mem_select_iff.mpr ⟨Table.mem_of_find? found, ?_⟩, ?_⟩
    · rw [rowId, live, List.contains_iff_mem.mpr named]
      rfl
    · have visibleId : view.id = row.id := Memory.applyAccessPolicy_id shown
      rw [shown, Option.map_some, visibleId, rowId]

/-- The batch returns the map of the ids for which the single read returns a
memory, with that memory. -/
def Db.BatchReadsAgree (parse : String → Option Instant) (db : Db) (ids : List MemoryId)
    (caller : Option String) (now : Instant) : Prop :=
  ∃ map, db.getBatchByIds parse ids caller now = .ok map ∧
    ∀ id memory, map id = some memory ↔
      id ∈ ids ∧ db.getById parse id caller now = .ok (some memory)

theorem batchReadsAgree_iff : db.BatchReadsAgree parse ids caller now ↔ db.Readable ids := by
  constructor
  · rintro ⟨map, ran, _⟩
    exact ((getBatchByIds_eq_ok_iff reader clock map).mp ran).1
  · intro readable
    refine ⟨db.batchMap ids caller now,
      (getBatchByIds_eq_ok_iff reader clock _).mpr ⟨readable, rfl⟩, ?_⟩
    intro id memory
    rw [batchMap_eq_some_iff, getById_eq_some_iff reader clock]
    constructor
    · rintro ⟨named, row, found, live, shown⟩
      have inIds : row.id ∈ ids := by rwa [Table.find?_key found]
      exact ⟨named, row, found, readable row (Table.mem_of_find? found) inIds, live, shown⟩
    · rintro ⟨named, row, found, _, live, shown⟩
      exact ⟨named, row, found, live, shown⟩

/-! ## Memberships -/

variable {principal : String}

omit [Host] reader clock in
/-- The memberships of one memory, in the order of the batch query. -/
theorem filter_batchOrder (named : id ∈ ids) :
    (orderBy (fun first second : MembershipRow =>
        decide (first.memoryId.ulid < second.memoryId.ulid) ||
          (decide (first.memoryId.ulid = second.memoryId.ulid) &&
            decide (first.ordinal ≤ second.ordinal)))
      (db.memoryContexts.select fun row => ids.contains row.memoryId)).filter
        (fun row => decide (row.memoryId = id)) = db.listedMemberships id := by
  have total : Std.Total fun first second : MembershipRow =>
      (decide (first.memoryId.ulid < second.memoryId.ulid) ||
        (decide (first.memoryId.ulid = second.memoryId.ulid) &&
          decide (first.ordinal ≤ second.ordinal))) = true := by
    refine ⟨fun first second => ?_⟩
    simp only [Bool.or_eq_true, Bool.and_eq_true, decide_eq_true_eq]
    omega
  have trans : IsTrans MembershipRow fun first second =>
      (decide (first.memoryId.ulid < second.memoryId.ulid) ||
        (decide (first.memoryId.ulid = second.memoryId.ulid) &&
          decide (first.ordinal ≤ second.ordinal))) = true := by
    refine ⟨fun first second third => ?_⟩
    simp only [Bool.or_eq_true, Bool.and_eq_true, decide_eq_true_eq]
    omega
  have ofMemory : (db.memoryContexts.select fun row => ids.contains row.memoryId).filter
      (fun row => decide (row.memoryId = id)) = db.membershipsOf id := by
    rw [Db.membershipsOf, Table.select, Table.select, List.filter_filter]
    refine List.filter_congr fun row _ => ?_
    by_cases same : row.memoryId = id
    · subst same
      simp [named]
    · simp [same]
  rw [filter_orderBy, ofMemory, Db.listedMemberships]
  refine orderBy_congr fun first firstMem second secondMem => ?_
  have firstId : first.memoryId = id := by simpa using (Table.mem_select_iff.mp firstMem).2
  have secondId : second.memoryId = id := by simpa using (Table.mem_select_iff.mp secondMem).2
  simp [firstId, secondId]

/-- Whether the batch query selects the memberships of a row. -/
def batchSelects (principal : String) (now : Instant) (row : MemoryRow) : Bool :=
  sqlUnexpired now row.expiresAt && memoryReadAllowed row.provenance row.accessPolicy principal

/-- The memberships that the batch returns for a memory. -/
def Db.batchMemberships (db : Db) (principal : String) (now : Instant) (id : MemoryId) :
    List MemoryContext :=
  match db.memories.find? id with
  | none => []
  | some row =>
      if batchSelects principal now row then db.visibleMemberships id principal else []

/-- The entry of a row of the batch query, as it is stored. -/
def batchEntry (principal : String) (row : MembershipBatchRow) :
    Option (MemoryId × MemoryContext) :=
  if memoryReadAllowed row.provenance row.accessPolicy principal then
    some (row.membership.memoryId, ⟨row.context, row.membership.ordinal⟩)
  else
    none

theorem parseMembershipBatchRow_eq_ok_iff (row : MembershipBatchRow)
    (entry : Option (MemoryId × MemoryContext)) :
    parseMembershipBatchRow parse principal row = .ok entry ↔
      (memoryReadAllowed row.provenance row.accessPolicy principal = true →
        row.context.FourDigitYears) ∧ entry = batchEntry principal row := by
  rw [parseMembershipBatchRow, batchEntry]
  cases allowed : memoryReadAllowed row.provenance row.accessPolicy principal with
  | false => simp [eq_comm]
  | true =>
      simp only [Bool.not_true, Bool.false_eq_true, if_false, if_true, forall_const, map_eq_ok,
        readMembership_eq_ok_iff reader clock]
      constructor
      · rintro ⟨_, ⟨years, rfl⟩, rfl⟩
        exact ⟨years, rfl⟩
      · rintro ⟨years, rfl⟩
        exact ⟨_, ⟨years, rfl⟩, rfl⟩

omit [Host] reader clock in
theorem foldl_appendMemoryContext (rows : List MembershipBatchRow)
    (memberships : Groups MemoryId MemoryContext) :
    rows.foldl (fun memberships row => appendMemoryContext memberships (batchEntry principal row))
        memberships =
      memberships.pushAll (rows.filterMap (batchEntry principal)) := by
  induction rows generalizing memberships with
  | nil => rfl
  | cons row rows inductionHypothesis =>
      rw [List.foldl_cons, inductionHypothesis]
      cases entry : batchEntry principal row with
      | none => rw [List.filterMap_cons_none entry, appendMemoryContext]
      | some value =>
          rw [List.filterMap_cons_some entry, appendMemoryContext, Groups.pushAll,
            Groups.pushAll, List.foldl_cons]

omit reader clock in
/-- A membership of the queried memory contributes its visible context. -/
theorem batchEntry_membershipBatchRow (row : MembershipRow) :
    ((db.membershipBatchRow principal now row).bind fun joined =>
        (batchEntry principal joined).bind fun entry =>
          if entry.1 = id then some entry.2 else none) =
      if decide (row.memoryId = id) then
        (db.memories.find? id).bind fun memory =>
          if batchSelects principal now memory then db.visibleMembership principal row else none
      else
        none := by
  rw [Db.membershipBatchRow]
  cases memoryFound : db.memories.find? row.memoryId with
  | none =>
      by_cases same : row.memoryId = id
      · subst same
        simp [memoryFound]
      · simp [same]
  | some memory =>
      cases contextFound : db.contexts.find? row.contextId with
      | none =>
          have hidden : db.visibleMembership principal row = none := by
            simp [Db.visibleMembership, contextFound]
          simp [hidden]
      | some stored =>
          have shown : db.visibleMembership principal row =
              if db.contextVisible stored.context principal then
                some ⟨stored.context, row.ordinal⟩ else none := by
            simp [Db.visibleMembership, contextFound]
          rw [shown]
          by_cases same : row.memoryId = id
          · subst same
            rw [memoryFound]
            simp only [Option.bind_some, batchSelects, decide_true, if_true]
            by_cases live : sqlUnexpired now memory.expiresAt = true
            · by_cases visible : db.contextVisible stored.context principal = true
              · by_cases allowed :
                  memoryReadAllowed memory.provenance memory.accessPolicy principal = true
                · simp [batchEntry, live, visible, allowed]
                · simp [batchEntry, live, visible, allowed]
              · simp [visible]
            · simp [live]
          · simp only [Option.bind_some, same, decide_false, Bool.false_eq_true, if_false]
            split
            · by_cases allowed :
                memoryReadAllowed memory.provenance memory.accessPolicy principal = true
              · simp [batchEntry, allowed, same]
              · simp [batchEntry, allowed]
            · rfl

omit reader clock in
/-- What the batch collects for one memory. -/
theorem rowsOf_batchEntries (id : MemoryId) :
    Groups.rowsOf id ((db.membershipBatchRows ids principal now).filterMap
      (batchEntry principal)) =
        if id ∈ ids then db.batchMemberships principal now id else [] := by
  rw [Groups.rowsOf, Db.membershipBatchRows, List.filterMap_filterMap, List.filterMap_filterMap]
  simp only [batchEntry_membershipBatchRow]
  rw [← List.filterMap_filter]
  split
  case isTrue named =>
    rw [filter_batchOrder named, Db.batchMemberships]
    cases db.memories.find? id with
    | none => simp
    | some row =>
        simp only [Option.bind_some]
        split
        · rfl
        · simp
  case isFalse unnamed =>
    rw [List.filterMap_eq_nil_iff]
    intro row rowMem
    obtain ⟨inOrder, same⟩ := List.mem_filter.mp rowMem
    have inIds := (Table.mem_select_iff.mp (mem_orderBy.mp inOrder)).2
    rw [of_decide_eq_true same, List.contains_iff_mem] at inIds
    exact absurd inIds unnamed

theorem getMemoryContextsBatch_eq_ok_iff (memberships : Groups MemoryId MemoryContext) :
    db.getMemoryContextsBatch parse ids principal now = .ok memberships ↔
      (∀ id ∈ ids, ∀ membership ∈ db.batchMemberships principal now id,
        membership.context.FourDigitYears) ∧
      memberships = fun id => Groups.entry
        (if id ∈ ids then db.batchMemberships principal now id else []) := by
  have stepOk (value : Groups MemoryId MemoryContext) (row : MembershipBatchRow)
      (next : Groups MemoryId MemoryContext) :
      (do return appendMemoryContext value (← parseMembershipBatchRow parse principal row) :
          Except StoreError _) = .ok next ↔
        (memoryReadAllowed row.provenance row.accessPolicy principal = true →
          row.context.FourDigitYears) ∧
        next = appendMemoryContext value (batchEntry principal row) := by
    simp only [bind_eq_ok, parseMembershipBatchRow_eq_ok_iff reader clock]
    constructor
    · rintro ⟨_, ⟨years, rfl⟩, done⟩
      exact ⟨years, (Except.ok.inj done).symm⟩
    · rintro ⟨years, rfl⟩
      exact ⟨_, ⟨years, rfl⟩, rfl⟩
  have readable : (∀ row ∈ db.membershipBatchRows ids principal now,
      memoryReadAllowed row.provenance row.accessPolicy principal = true →
        row.context.FourDigitYears) ↔
      ∀ id ∈ ids, ∀ membership ∈ db.batchMemberships principal now id,
        membership.context.FourDigitYears := by
    constructor
    · intro years id named membership membershipMem
      have collected : membership ∈ Groups.rowsOf id
          ((db.membershipBatchRows ids principal now).filterMap (batchEntry principal)) := by
        rwa [rowsOf_batchEntries, if_pos named]
      obtain ⟨row, rowMem, entry⟩ := List.mem_filterMap.mp (Groups.mem_rowsOf_iff.mp collected)
      unfold batchEntry at entry
      split at entry
      case isTrue allowed =>
        cases entry
        exact years row rowMem allowed
      case isFalse => cases entry
    · intro years row rowMem allowed
      have collected : (row.membership.memoryId, (⟨row.context, row.membership.ordinal⟩ :
          MemoryContext)) ∈
          (db.membershipBatchRows ids principal now).filterMap (batchEntry principal) :=
        List.mem_filterMap.mpr ⟨row, rowMem, if_pos allowed⟩
      have ofMemory := Groups.mem_rowsOf_iff.mpr collected
      rw [rowsOf_batchEntries] at ofMemory
      split at ofMemory
      case isTrue named => exact years _ named _ ofMemory
      case isFalse => cases ofMemory
  have result : (Groups.empty : Groups MemoryId MemoryContext).pushAll
      ((db.membershipBatchRows ids principal now).filterMap (batchEntry principal)) =
        fun id => Groups.entry (if id ∈ ids then db.batchMemberships principal now id else []) := by
    funext id
    rw [Groups.pushAll_empty, rowsOf_batchEntries]
  rw [Db.getMemoryContextsBatch]
  split
  case isTrue empty =>
    rw [List.isEmpty_iff.mp empty]
    have nothing : (Groups.empty : Groups MemoryId MemoryContext) = fun id => Groups.entry
        (if id ∈ ([] : List MemoryId) then db.batchMemberships principal now id else []) := by
      funext id
      simp [Groups.entry]
    rw [← nothing]
    simp [eq_comm]
  case isFalse =>
    rw [foldlM_eq_ok_iff stepOk, foldl_appendMemoryContext, readable, result]

/-! ## Agreement of the memberships -/

/-- An error of the conversion from text. -/
def Unread (error : StoreError) : Prop :=
  ∃ message, error = .serialization message

omit reader clock in
theorem readTimestamp_unread (invalid : String) (stored : Instant) :
    FailsWith Unread (readTimestamp parse invalid stored) := by
  intro error failed
  unfold readTimestamp at failed
  split at failed
  · cases failed
  · cases failed
    exact ⟨_, rfl⟩

omit reader clock in
theorem readMemory_unread (row : MemoryRow) : FailsWith Unread (readMemory parse row) := by
  refine FailsWith.bind (readTimestamp_unread _ _) fun _ => ?_
  refine FailsWith.bind (FailsWith.mapOption (readTimestamp_unread _)) fun _ => ?_
  refine FailsWith.bind (FailsWith.mapOption (readTimestamp_unread _)) fun _ => ?_
  refine FailsWith.bind (FailsWith.mapOption (readTimestamp_unread _)) fun _ => ?_
  exact FailsWith.bind (readTimestamp_unread _ _) fun _ => FailsWith.ok _

omit reader clock in
theorem readMemoryContexts_of_absent (absent : db.memories.find? id = none) :
    db.readMemoryContexts parse id principal now = .error (memoryNotFound id) := by
  simp only [Db.readMemoryContexts, Db.fetchMemory, absent]
  rfl

theorem readMemoryContexts_of_unreadable {row : MemoryRow}
    (found : db.memories.find? id = some row) (unreadable : ¬ row.FourDigitYears) :
    ∃ error, db.readMemoryContexts parse id principal now = .error error ∧ Unread error := by
  cases read : readMemory parse row with
  | ok memory => exact absurd ((readMemory_eq_ok_iff reader clock row memory).mp read).1 unreadable
  | error error =>
      refine ⟨error, ?_, readMemory_unread row error read⟩
      simp only [Db.readMemoryContexts, Db.fetchMemory, found, read]
      rfl

theorem readMemoryContexts_of_readable {row : MemoryRow}
    (found : db.memories.find? id = some row) (readable : row.FourDigitYears) :
    db.readMemoryContexts parse id principal now =
      if row.toMemory.expiredAt now ||
          row.toMemory.checkAccessLevel (some principal) == .denied then
        .error (memoryNotFound id)
      else (db.visibleMemberships id principal).mapM (readMembership parse) := by
  have read := (readMemory_eq_ok_iff reader clock row row.toMemory).mpr ⟨readable, rfl⟩
  simp only [Db.readMemoryContexts, Db.fetchMemory, found, read]
  rfl

theorem mapM_readMembership_eq_ok_iff (memberships contexts : List MemoryContext) :
    memberships.mapM (readMembership parse) = .ok contexts ↔
      (∀ membership ∈ memberships, membership.context.FourDigitYears) ∧
        contexts = memberships := by
  rw [mapM_eq_ok_iff (readMembership_eq_ok_iff reader clock), List.map_id']

omit reader in
/-- The query selects the memberships of a readable row that has not expired,
and of an expired one when the time lies after the year 9999. -/
theorem batchSelects_iff {row : MemoryRow} (readable : row.FourDigitYears) :
    batchSelects principal now row = true ↔
      (row.toMemory.expiredAt now = false ∨ AfterYear9999 now) ∧
        row.toMemory.checkAccessLevel (some principal) ≠ .denied := by
  have level := memoryReadAllowed_iff row.provenance row.accessPolicy principal
  have unexpired : sqlUnexpired now row.expiresAt = true ↔
      row.toMemory.expiredAt now = false ∨ AfterYear9999 now := by
    rw [sqlUnexpired, Memory.expiredAt]
    change _ ↔ (row.expiresAt.any fun expiry => decide (expiry ≤ now)) = false ∨ _
    cases expires : row.expiresAt with
    | none => simp
    | some expiry =>
        have fourDigit := readable.expires expiry expires
        rw [Option.all_some, Option.any_some, decide_eq_true_iff, clock, clock,
          rfc3339_lt_iff_or fourDigit, decide_eq_false_iff_not, not_le]
  rw [batchSelects, Bool.and_eq_true, unexpired, level]
  rfl

/-- The entry of the batch is what the single read returns. -/
def Db.ContextsAgreeAt (parse : String → Option Instant) (db : Db) (principal : String)
    (now : Instant) (memberships : Groups MemoryId MemoryContext) (id : MemoryId) : Prop :=
  (∃ contexts, db.readMemoryContexts parse id principal now = .ok contexts ∧
    memberships id = Groups.entry contexts) ∨
  (∃ message, db.readMemoryContexts parse id principal now = .error (.notFound message)) ∧
    memberships id = none

/-- The batch returns, for each id, what the single read returns. -/
def Db.BatchContextsAgree (parse : String → Option Instant) (db : Db) (ids : List MemoryId)
    (principal : String) (now : Instant) : Prop :=
  ∃ memberships, db.getMemoryContextsBatch parse ids principal now = .ok memberships ∧
    (∀ id ∈ ids, db.ContextsAgreeAt parse principal now memberships id) ∧
    ∀ id, id ∉ ids → memberships id = none

/-- A stored memory can be read back, and when the principal may read it, so
can the contexts that the principal sees; an expired one has such contexts only
up to the year 9999. -/
def Db.MembershipsReadable (db : Db) (principal : String) (now : Instant) (id : MemoryId) :
    Prop :=
  ∀ row, db.memories.find? id = some row →
    row.FourDigitYears ∧
    (row.toMemory.checkAccessLevel (some principal) ≠ .denied →
      ∀ membership ∈ db.visibleMemberships id principal,
        if row.toMemory.expiredAt now then ¬ AfterYear9999 now
        else membership.context.FourDigitYears)

theorem contextsAgreeAt_iff (memberships : Groups MemoryId MemoryContext)
    (entry : memberships id = Groups.entry (db.batchMemberships principal now id)) :
    (∀ membership ∈ db.batchMemberships principal now id, membership.context.FourDigitYears) ∧
      db.ContextsAgreeAt parse principal now memberships id ↔
        db.MembershipsReadable principal now id := by
  rw [Db.ContextsAgreeAt, entry]
  cases found : db.memories.find? id with
  | none =>
      have nothing : db.batchMemberships principal now id = [] := by
        simp [Db.batchMemberships, found]
      rw [readMemoryContexts_of_absent found, nothing]
      refine iff_of_true ⟨by simp, Or.inr ⟨⟨_, rfl⟩, rfl⟩⟩ fun row isRow => ?_
      rw [found] at isRow
      cases isRow
  | some row =>
      have readableIff : db.MembershipsReadable principal now id ↔
          row.FourDigitYears ∧
          (row.toMemory.checkAccessLevel (some principal) ≠ .denied →
            ∀ membership ∈ db.visibleMemberships id principal,
              if row.toMemory.expiredAt now then ¬ AfterYear9999 now
              else membership.context.FourDigitYears) := by
        rw [Db.MembershipsReadable, found]
        simp
      rw [readableIff]
      by_cases years : row.FourDigitYears
      case neg =>
        obtain ⟨error, failed, message, rfl⟩ : ∃ error,
            db.readMemoryContexts parse id principal now = .error error ∧ Unread error :=
          readMemoryContexts_of_unreadable reader clock found years
        rw [failed]
        simp [years]
      case pos =>
        have batch : db.batchMemberships principal now id =
            if batchSelects principal now row then db.visibleMemberships id principal else [] := by
          simp [Db.batchMemberships, found]
        have selects : batchSelects principal now row = true ↔
            (row.toMemory.expiredAt now = false ∨ AfterYear9999 now) ∧
              row.toMemory.checkAccessLevel (some principal) ≠ .denied :=
          batchSelects_iff clock years
        rw [readMemoryContexts_of_readable reader clock found years, batch]
        by_cases denied : row.toMemory.checkAccessLevel (some principal) = .denied
        case pos =>
          have unselected : batchSelects principal now row = false := by
            simpa [denied] using selects
          simp [denied, unselected, years, Groups.entry, memoryNotFound]
        case neg =>
          cases expired : row.toMemory.expiredAt now with
          | true =>
              by_cases late : AfterYear9999 now
              · have selected : batchSelects principal now row = true :=
                  selects.mpr ⟨Or.inr late, denied⟩
                rw [selected]
                cases db.visibleMemberships id principal with
                | nil => simp [years, Groups.entry, memoryNotFound]
                | cons head rest =>
                    refine iff_of_false (by simp [Groups.entry]) fun readable => ?_
                    have early := readable.2 denied head List.mem_cons_self
                    rw [if_pos rfl] at early
                    exact early late
              · have unselected : batchSelects principal now row = false := by
                  simpa [expired, late] using selects
                simp [unselected, years, late, Groups.entry, memoryNotFound]
          | false =>
              have selected : batchSelects principal now row = true :=
                selects.mpr ⟨Or.inl expired, denied⟩
              have notRefused : (false || row.toMemory.checkAccessLevel (some principal) ==
                  .denied) = false := by simp [denied]
              have readAll := mapM_readMembership_eq_ok_iff reader clock
                (db.visibleMemberships id principal)
              simp only [selected, notRefused, Bool.false_eq_true, if_true, if_false]
              constructor
              · rintro ⟨all, _⟩
                exact ⟨years, fun _ => all⟩
              · rintro ⟨_, all⟩
                exact ⟨all denied, Or.inl ⟨_, (readAll _).mpr ⟨all denied, rfl⟩, rfl⟩⟩

theorem batchContextsAgree_iff :
    db.BatchContextsAgree parse ids principal now ↔
      ∀ id ∈ ids, db.MembershipsReadable principal now id := by
  have entryOf {id : MemoryId} (named : id ∈ ids) :
      Groups.entry (if id ∈ ids then db.batchMemberships principal now id else []) =
        Groups.entry (db.batchMemberships principal now id) := by
    rw [if_pos named]
  constructor
  · rintro ⟨memberships, ran, agree, _⟩ id named
    obtain ⟨readable, rfl⟩ := (getMemoryContextsBatch_eq_ok_iff reader clock memberships).mp ran
    exact (contextsAgreeAt_iff reader clock _ (entryOf named)).mp ⟨readable id named, agree id named⟩
  · intro readable
    have each (id : MemoryId) (named : id ∈ ids) :=
      (contextsAgreeAt_iff reader clock (fun id => Groups.entry
        (if id ∈ ids then db.batchMemberships principal now id else []))
        (entryOf named)).mpr (readable id named)
    refine ⟨_, (getMemoryContextsBatch_eq_ok_iff reader clock _).mpr
      ⟨fun id named => (each id named).1, rfl⟩, fun id named => (each id named).2, ?_⟩
    intro id unnamed
    simp [unnamed, Groups.entry]

/-- The batch reads agree with the single reads exactly where every named memory
can be read back, with the contexts that the principal sees. -/
theorem batch_reads_agree_iff (db : Db) (ids : List MemoryId) (caller : Option String)
    (principal : String) (now : Instant) :
    (db.BatchReadsAgree parse ids caller now ↔ db.Readable ids) ∧
      (db.BatchContextsAgree parse ids principal now ↔
        ∀ id ∈ ids, db.MembershipsReadable principal now id) :=
  ⟨batchReadsAgree_iff reader clock, batchContextsAgree_iff reader clock⟩

end Readable

end Batch

/-! ## A distant expiry -/

/-- A row with this expiry, stored in 2024. -/
def expiringRow (id : Nat) (expiresAt : Option Instant) : MemoryRow :=
  preparedMemoryRow
    ⟨{ Memory.plain ⟨id⟩ "owner" "text" 1704164645000000000 with expiresAt := expiresAt }, none⟩

/-- Two memories of one owner; the second one may expire. -/
def expiringDb (expiresAt : Option Instant) : Db :=
  { Db.empty 1 with memories := ⟨[expiringRow 1 none, expiringRow 2 expiresAt], by
      have distinct : ([⟨1⟩, ⟨2⟩] : List MemoryId).Nodup := by decide
      exact distinct⟩ }

theorem fourDigitYears_expiringRow (id : Nat) {expiresAt : Option Instant}
    (expires : ∀ instant ∈ expiresAt, FourDigitYear instant) :
    (expiringRow id expiresAt).FourDigitYears := by
  have stored : FourDigitYear 1704164645000000000 := by decide
  exact ⟨stored, expires, fun _ none => (by cases none), fun _ none => (by cases none), stored⟩

/-- A batch with an expiry in the next hour reads what the single reads do. -/
theorem batch_reads_agree_hour :
    @Db.BatchReadsAgree asciiHost parseUtc (expiringDb (some 1704168245000000000))
        [⟨1⟩, ⟨2⟩, ⟨1⟩, ⟨3⟩] none 1704164645000000000 ∧
      @Db.BatchContextsAgree asciiHost parseUtc (expiringDb (some 1704168245000000000))
        [⟨1⟩, ⟨2⟩, ⟨1⟩, ⟨3⟩] "owner" 1704164645000000000 := by
  have hour : ∀ instant ∈ some (1704168245000000000 : Instant), FourDigitYear instant := by
    intro instant expires
    cases expires
    have fourDigit : FourDigitYear 1704168245000000000 := by decide
    exact fourDigit
  have readable : (expiringDb (some 1704168245000000000)).Readable [⟨1⟩, ⟨2⟩, ⟨1⟩, ⟨3⟩] := by
    intro row rowMem _
    rcases List.mem_cons.mp rowMem with rfl | later
    · exact fourDigitYears_expiringRow 1 fun _ none => (by cases none)
    · rcases List.mem_singleton.mp later with rfl
      exact fourDigitYears_expiringRow 2 hour
  have agree := @batch_reads_agree_iff asciiHost parseUtc rfc3339Reader_parseUtc (fun _ => rfl)
    (expiringDb (some 1704168245000000000)) [⟨1⟩, ⟨2⟩, ⟨1⟩, ⟨3⟩] none "owner" 1704164645000000000
  refine ⟨agree.1.mpr readable, agree.2.mpr fun id named row found => ⟨?_, ?_⟩⟩
  · exact readable row (Table.mem_of_find? found) (by rwa [Table.find?_key found])
  · intro _ membership membershipMem
    cases membershipMem

/-- A memory that expires in the year 11530 is accepted and fails every batch
that names it, although the single read of the other memory succeeds. -/
theorem batch_read_fails_after_year_9999 :
    @ttlSecondsToExpiry 300000000000 1704164645000000000 = .ok 301704164645000000000 ∧
      (∃ memory, @Db.getById asciiHost parseUtc (expiringDb (some 301704164645000000000)) ⟨1⟩
        (some "owner") 1704164645000000000 = .ok (some memory)) ∧
      ¬ @Db.BatchReadsAgree asciiHost parseUtc (expiringDb (some 301704164645000000000))
        [⟨1⟩, ⟨2⟩] (some "owner") 1704164645000000000 ∧
      ¬ @Db.BatchContextsAgree asciiHost parseUtc (expiringDb (some 301704164645000000000))
        [⟨1⟩, ⟨2⟩] "owner" 1704164645000000000 := by
  have distant : ¬ (expiringRow 2 (some 301704164645000000000)).FourDigitYears := by
    intro years
    have other : ¬ FourDigitYear 301704164645000000000 := by decide
    exact other (years.expires _ rfl)
  refine ⟨by decide, ?_, ?_, ?_⟩
  · refine ⟨_, (@getById_eq_some_iff asciiHost parseUtc rfc3339Reader_parseUtc (fun _ => rfl) _ _ _
      _ _).mpr ⟨expiringRow 1 none, by decide,
        fourDigitYears_expiringRow 1 fun _ none => (by cases none), by decide, rfl⟩⟩
  · rw [@batchReadsAgree_iff asciiHost parseUtc rfc3339Reader_parseUtc fun _ => rfl]
    intro readable
    exact distant (readable _ (List.mem_cons_of_mem _ List.mem_cons_self) (by decide))
  · rw [@batchContextsAgree_iff asciiHost parseUtc rfc3339Reader_parseUtc fun _ => rfl]
    intro readable
    exact distant (readable ⟨2⟩ (by decide) (expiringRow 2 (some 301704164645000000000)) (by decide)).1

end LocalHold
