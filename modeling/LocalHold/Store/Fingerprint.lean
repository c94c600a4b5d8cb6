import LocalHold.Coding.PrefixCodes
import LocalHold.Relational.Query
import Mathlib.Tactic.Common

/-!
# Fingerprints of backups

`sqlite_logical_fingerprint` hashes the version of a database, its schema and
the rows of its tables, one table after another.  Version, schema and rows can
be read back from the hashed bytes, but nothing marks where the rows of a table
end: two databases with the same schema are hashed alike where rows at the end
of a table in one of them stand behind that table in the other.
-/

namespace LocalHold

open Coding Relational

/-! ## Databases -/

/-- The bytes of a text or a blob. -/
abbrev Bytes :=
  {bytes : List UInt8 // bytes.length < 256 ^ 8}

/-- A column of a row: integers in two's complement, reals by their bits. -/
inductive SqliteValue where
  | null
  | integer (value : BitVec 64)
  | real (bits : BitVec 64)
  | text (value : Bytes)
  | blob (value : Bytes)
  deriving DecidableEq

/-- A row of `sqlite_master`. -/
structure SchemaRow where
  objectType : Bytes
  name : Bytes
  tableName : Bytes
  rootPage : BitVec 64
  sql : Option Bytes
  deriving DecidableEq

/-- What SQLite makes of the schema rows that define a table. -/
class SqliteEngine where
  columnCount : List SchemaRow → Bytes → Nat
  /-- The limit on the columns of a table. -/
  bounded : ∀ schema name, columnCount schema name ≤ 32767
  /-- The comparison by all columns, under their collations. -/
  before : List SchemaRow → Bytes → List SqliteValue → List SqliteValue → Bool

/-- The order by type and name. -/
def SchemaRow.before (first second : SchemaRow) : Bool :=
  decide (first.objectType.val < second.objectType.val) ||
    (decide (first.objectType = second.objectType) && decide (first.name.val ≤ second.name.val))

/-- A database file; a query over a table can fail.  The columns of a row are
those of the definition of its table. -/
structure SqliteFile [SqliteEngine] where
  userVersion : BitVec 32
  schema : List SchemaRow
  tables : Bytes → Option (List (List SqliteValue))
  complete : ∀ name rows, tables name = some rows → ∀ row ∈ rows,
    row.length = SqliteEngine.columnCount (orderBy SchemaRow.before schema) name

/-! ## The hashed bytes -/

/-- `u64::try_from(value).unwrap_or(u64::MAX).to_be_bytes()`. -/
def u64Bytes (value : Nat) : List UInt8 :=
  bigEndian 8 (if value < 256 ^ 8 then value else 256 ^ 8 - 1)

/-- `hash_sqlite_value`. -/
def hashSqliteValue : SqliteValue → List UInt8
  | .null => [0]
  | .integer value => 1 :: bigEndian 8 value.toNat
  | .real bits => 2 :: bigEndian 8 bits.toNat
  | .text value => 3 :: (u64Bytes value.val.length ++ value.val)
  | .blob value => 4 :: (u64Bytes value.val.length ++ value.val)

/-- `row.get::<_, String>`: the text of a column is UTF-8. -/
def isUtf8 (text : Bytes) : Bool :=
  (ByteArray.mk text.val.toArray).validateUTF8

/-- Whether the columns of a schema row are read as strings. -/
def SchemaRow.isReadable (row : SchemaRow) : Bool :=
  isUtf8 row.objectType && isUtf8 row.name && isUtf8 row.tableName && row.sql.all isUtf8

/-- The values that are hashed of a schema row. -/
def SchemaRow.values (row : SchemaRow) : List SqliteValue :=
  [.text row.objectType, .text row.name, .text row.tableName, .integer row.rootPage,
    (row.sql.map .text).getD .null]

/-- The text `table`. -/
def tableType : List UInt8 :=
  [0x74, 0x61, 0x62, 0x6c, 0x65]

section Files

variable [SqliteEngine]

namespace SqliteFile

variable (file : SqliteFile)

/-- The version as `u32`; a negative one is out of range. -/
def version : Option (BitVec 32) :=
  if file.userVersion.msb then none else some file.userVersion

/-- The query over `sqlite_master`. -/
def schemaRows : List SchemaRow :=
  orderBy SchemaRow.before file.schema

/-- The schema rows, when all of them are read. -/
def readSchema : Option (List SchemaRow) :=
  if file.schemaRows.all SchemaRow.isReadable then some file.schemaRows else none

/-- The names of the tables, in the order of the schema. -/
def tableNames : List Bytes :=
  (file.schemaRows.filter fun row => row.objectType.val == tableType).map SchemaRow.name

/-- The rows of `SELECT * FROM table ORDER BY 1, …`. -/
def answer (name : Bytes) : Option (List (List SqliteValue)) :=
  (file.tables name).map (orderBy (SqliteEngine.before file.schemaRows name))

/-- The rows of the tables, one table after another. -/
def answers : Option (List (List (List SqliteValue))) :=
  file.tableNames.mapM file.answer

/-- The bytes that are hashed of a table. -/
def tableStream (name : Bytes) : Option (List UInt8) :=
  (file.answer name).map fun rows => rows.flatMap fun row =>
    u64Bytes (SqliteEngine.columnCount file.schemaRows name) ++ row.flatMap hashSqliteValue

/-- The bytes that `sqlite_logical_fingerprint` hashes. -/
def logicalStream : Option (List UInt8) := do
  let version ← file.version
  let schema ← file.readSchema
  let tables ← file.tableNames.mapM file.tableStream
  return bigEndian 4 version.toNat ++
    (schema.flatMap (fun row => row.values.flatMap hashSqliteValue) ++ tables.flatten)

end SqliteFile

end Files

section Reuse

variable [SqliteEngine] {δ : Type} [DecidableEq δ] (digest : List UInt8 → δ)

/-- `sqlite_logical_fingerprint`. -/
def sqliteLogicalFingerprint (file : SqliteFile) : Option δ :=
  file.logicalStream.map digest

/-- An adjacent file that opens as a database, with the answer of `PRAGMA quick_check`. -/
structure BackupCandidate [SqliteEngine] where
  file : SqliteFile
  quickCheck : Option String

/-- `SELECT EXISTS(SELECT 1 FROM sqlite_master WHERE type = 'table' AND name = …)`. -/
def SqliteFile.containsTable (file : SqliteFile) (name : Bytes) : Bool :=
  file.schema.any fun row => row.objectType.val == tableType && row.name == name

/-- `reusable_pre_upgrade_backup`. -/
def reusablePreUpgradeBackup (candidate : Option BackupCandidate) (sourceFingerprint : δ)
    (sourceVersion : BitVec 32) (sourceTable : Option Bytes) : Bool :=
  match candidate with
  | none => false
  | some backup =>
      match backup.quickCheck with
      | none => false
      | some integrity =>
          if integrity != "ok" || backup.file.version != some sourceVersion ||
              !sourceTable.all backup.file.containsTable then
            false
          else (sqliteLogicalFingerprint digest backup.file).any (· == sourceFingerprint)

/-- `find_reusable_pre_upgrade_backup`: the first candidate, from the latest on,
that can be reused; reading the source can fail. -/
def findReusablePreUpgradeBackup (source : SqliteFile) (candidates : List (Option BackupCandidate))
    (sourceVersion : BitVec 32) (sourceTable : Option Bytes) :
    Option (Option (Option BackupCandidate)) :=
  (sqliteLogicalFingerprint digest source).map fun sourceFingerprint =>
    candidates.find? fun candidate =>
      reusablePreUpgradeBackup digest candidate sourceFingerprint sourceVersion sourceTable

end Reuse

/-! ## Reading the bytes back -/

theorem u64Bytes_of_lt {value : Nat} (bound : value < 256 ^ 8) :
    u64Bytes value = bigEndian 8 value := by
  rw [u64Bytes, if_pos bound]

theorem prefixFreeOn_u64Bytes : PrefixFreeOn (fun value => value < 256 ^ 8) u64Bytes := by
  intro first second firstBound secondBound left right same
  rw [u64Bytes_of_lt firstBound, u64Bytes_of_lt secondBound] at same
  exact prefixFreeOn_bigEndian 8 firstBound secondBound same

theorem prefixFreeOn_bitVec (width : Nat) :
    PrefixFreeOn (fun _ => True) fun value : BitVec (8 * width) => bigEndian width value.toNat := by
  have bound (value : BitVec (8 * width)) : value.toNat < 256 ^ width := by
    have fits := value.isLt
    rwa [Nat.pow_mul] at fits
  intro first second _ _ left right same
  obtain ⟨numbers, rests⟩ := prefixFreeOn_bigEndian width (bound first) (bound second) same
  exact ⟨BitVec.eq_of_toNat_eq numbers, rests⟩

theorem prefixFreeOn_bytes : PrefixFreeOn (fun _ => True)
    fun value : Bytes => u64Bytes value.val.length ++ value.val := by
  intro first second _ _ left right same
  obtain ⟨texts, rests⟩ := prefixFreeOn_u64Bytes.framed first.property second.property same
  exact ⟨Subtype.ext texts, rests⟩

/-- The bytes of a value tell the value. -/
theorem prefixFreeOn_hashSqliteValue : PrefixFreeOn (fun _ => True) hashSqliteValue := by
  intro first second _ _ left right same
  cases first <;> cases second <;>
    simp only [hashSqliteValue, List.cons_append, List.nil_append, List.cons.injEq] at same
  case null.null => exact ⟨rfl, same.2⟩
  case integer.integer value other =>
    obtain ⟨rfl, rests⟩ := prefixFreeOn_bitVec 8 trivial trivial same.2
    exact ⟨rfl, rests⟩
  case real.real bits others =>
    obtain ⟨rfl, rests⟩ := prefixFreeOn_bitVec 8 trivial trivial same.2
    exact ⟨rfl, rests⟩
  case text.text value other =>
    obtain ⟨rfl, rests⟩ := prefixFreeOn_bytes trivial trivial same.2
    exact ⟨rfl, rests⟩
  case blob.blob value other =>
    obtain ⟨rfl, rests⟩ := prefixFreeOn_bytes trivial trivial same.2
    exact ⟨rfl, rests⟩
  all_goals exact absurd same.1 (by decide)

theorem SchemaRow.values_inj {first second : SchemaRow} (same : first.values = second.values) :
    first = second := by
  obtain ⟨objectType, name, tableName, rootPage, sql⟩ := first
  obtain ⟨otherType, otherName, otherTable, otherPage, otherSql⟩ := second
  simp only [SchemaRow.values, List.cons.injEq, SqliteValue.text.injEq,
    SqliteValue.integer.injEq] at same
  obtain ⟨rfl, rfl, rfl, rfl, sqls, -⟩ := same
  cases sql <;> cases otherSql <;> simp_all

theorem prefixFreeOn_schemaRow : PrefixFreeOn (fun _ => True)
    fun row : SchemaRow => row.values.flatMap hashSqliteValue := by
  intro first second _ _ left right same
  have lengths : first.values.length = second.values.length := rfl
  obtain ⟨values, rests⟩ := prefixFreeOn_hashSqliteValue.flatMap_append_inj
    (fun _ _ => trivial) (fun _ _ => trivial) lengths same
  exact ⟨SchemaRow.values_inj values, rests⟩

/-- The bytes of a row behind the number of its columns. -/
def rowStream (row : List SqliteValue) : List UInt8 :=
  u64Bytes row.length ++ row.flatMap hashSqliteValue

theorem prefixFreeOn_rowStream :
    PrefixFreeOn (fun row : List SqliteValue => row.length ≤ 32767) rowStream := by
  intro first second firstFew secondFew left right same
  have fits {row : List SqliteValue} (few : row.length ≤ 32767) : row.length < 256 ^ 8 :=
    Nat.lt_of_le_of_lt few (by decide)
  exact (prefixFreeOn_hashSqliteValue.counted prefixFreeOn_u64Bytes)
    ⟨fits firstFew, fun _ _ => trivial⟩ ⟨fits secondFew, fun _ _ => trivial⟩ same

/-- A row starts with a zero byte, for it has few columns. -/
theorem exists_rowStream_eq_cons {row : List SqliteValue} (few : row.length ≤ 32767) :
    ∃ rest, rowStream row = 0 :: rest := by
  have leading : row.length / 256 ^ 7 = 0 :=
    Nat.div_eq_of_lt (Nat.lt_of_le_of_lt few (by decide))
  rw [rowStream, u64Bytes_of_lt (Nat.lt_of_le_of_lt few (by decide)), bigEndian, leading]
  exact ⟨_, rfl⟩

theorem startsNone_rows {rows : List (List SqliteValue)}
    (few : ∀ row ∈ rows, row.length ≤ 32767) :
    StartsNone (fun _ => True) (fun row : SchemaRow => row.values.flatMap hashSqliteValue)
      (rows.flatMap rowStream) := by
  intro schemaRow _ rest same
  cases rows with
  | nil =>
      rw [List.flatMap_nil] at same
      cases same
  | cons row rows =>
      obtain ⟨bytes, starts⟩ := exists_rowStream_eq_cons (few row List.mem_cons_self)
      rw [List.flatMap_cons, starts] at same
      exact absurd (List.cons.inj same).1 (by decide)

namespace SqliteFile

variable [SqliteEngine] {file : SqliteFile}

/-- The rows of a table have its columns. -/
theorem length_of_mem_answer {name : Bytes} {rows : List (List SqliteValue)}
    (answered : file.answer name = some rows) {row : List SqliteValue} (member : row ∈ rows) :
    row.length = SqliteEngine.columnCount file.schemaRows name := by
  obtain ⟨stored, isStored, rfl⟩ := Option.map_eq_some_iff.mp answered
  exact file.complete name stored isStored row (mem_orderBy.mp member)

theorem tableStream_eq (name : Bytes) :
    file.tableStream name = (file.answer name).map fun rows => rows.flatMap rowStream := by
  cases answered : file.answer name with
  | none => rw [tableStream, answered, Option.map_none, Option.map_none]
  | some rows =>
      rw [tableStream, answered, Option.map_some, Option.map_some, Option.some.injEq]
      refine List.flatMap_congr fun row member => ?_
      rw [rowStream, length_of_mem_answer answered member]

/-- The tables are hashed as their rows in turn. -/
theorem mapM_tableStream (names : List Bytes) :
    names.mapM file.tableStream =
      (names.mapM file.answer).map (·.map fun rows => rows.flatMap rowStream) := by
  induction names with
  | nil => rfl
  | cons name names inductionHypothesis =>
      rw [List.mapM_cons, List.mapM_cons, inductionHypothesis, tableStream_eq]
      cases file.answer name with
      | none => rfl
      | some rows => cases names.mapM file.answer <;> rfl

theorem few_of_mem_answers {names : List Bytes} {tables : List (List (List SqliteValue))}
    (read : names.mapM file.answer = some tables) :
    ∀ row ∈ tables.flatten, row.length ≤ 32767 := by
  induction names generalizing tables with
  | nil =>
      cases read
      simp
  | cons name names inductionHypothesis =>
      simp only [List.mapM_cons, Option.bind_eq_bind, Option.bind_eq_some_iff, Option.pure_def,
        Option.some.injEq] at read
      obtain ⟨rows, answered, tables, readTables, rfl⟩ := read
      intro row member
      rw [List.flatten_cons] at member
      rcases List.mem_append.mp member with first | later
      · rw [length_of_mem_answer answered first]
        exact SqliteEngine.bounded _ _
      · exact inductionHypothesis readTables row later

theorem length_answers {names : List Bytes} {tables : List (List (List SqliteValue))}
    (read : names.mapM file.answer = some tables) : tables.length = names.length := by
  induction names generalizing tables with
  | nil =>
      cases read
      rfl
  | cons name names inductionHypothesis =>
      simp only [List.mapM_cons, Option.bind_eq_bind, Option.bind_eq_some_iff, Option.pure_def,
        Option.some.injEq] at read
      obtain ⟨rows, -, tables, readTables, rfl⟩ := read
      rw [List.length_cons, List.length_cons, inductionHypothesis readTables]

/-- What is read of a database before it is hashed. -/
structure Reads (file : SqliteFile) (version : BitVec 32) (schema : List SchemaRow)
    (tables : List (List (List SqliteValue))) : Prop where
  version : file.version = some version
  schema : file.readSchema = some schema
  tables : file.answers = some tables

theorem logicalStream_eq_some_iff {bytes : List UInt8} :
    file.logicalStream = some bytes ↔ ∃ version schema tables, file.Reads version schema tables ∧
      bytes = bigEndian 4 version.toNat ++
        (schema.flatMap (fun row => row.values.flatMap hashSqliteValue) ++
          tables.flatten.flatMap rowStream) := by
  have flattened : ∀ tables : List (List (List SqliteValue)),
      (tables.map fun rows => rows.flatMap rowStream).flatten = tables.flatten.flatMap rowStream := by
    intro tables
    induction tables with
    | nil => rfl
    | cons rows tables inductionHypothesis =>
        rw [List.map_cons, List.flatten_cons, List.flatten_cons, List.flatMap_append,
          inductionHypothesis]
  rw [logicalStream, mapM_tableStream]
  simp only [Option.bind_eq_bind, Option.bind_eq_some_iff, Option.pure_def, Option.some.injEq,
    Option.map_eq_some_iff]
  constructor
  · rintro ⟨version, isVersion, schema, isSchema, _, ⟨tables, isTables, rfl⟩, rfl⟩
    exact ⟨version, schema, tables, ⟨isVersion, isSchema, isTables⟩, by rw [flattened]⟩
  · rintro ⟨version, schema, tables, reads, rfl⟩
    exact ⟨version, reads.version, schema, reads.schema, _, ⟨tables, reads.tables, rfl⟩,
      by rw [flattened]⟩

theorem userVersion_of_version {version : BitVec 32} (read : file.version = some version) :
    file.userVersion = version := by
  rw [SqliteFile.version] at read
  split at read
  · cases read
  · exact Option.some.inj read

theorem schemaRows_of_readSchema {schema : List SchemaRow} (read : file.readSchema = some schema) :
    file.schemaRows = schema := by
  rw [readSchema] at read
  split at read
  · exact Option.some.inj read
  · cases read

end SqliteFile

section Pairs

variable [SqliteEngine] {first second : SqliteFile} {version otherVersion : BitVec 32}
  {schema otherSchema : List SchemaRow} {tables others : List (List (List SqliteValue))}

/-- The bytes tell the version, the schema and the rows in turn. -/
theorem reads_of_stream_eq (firstReads : first.Reads version schema tables)
    (secondReads : second.Reads otherVersion otherSchema others)
    (same : bigEndian 4 version.toNat ++
        (schema.flatMap (fun row => row.values.flatMap hashSqliteValue) ++
          tables.flatten.flatMap rowStream) =
      bigEndian 4 otherVersion.toNat ++
        (otherSchema.flatMap (fun row => row.values.flatMap hashSqliteValue) ++
          others.flatten.flatMap rowStream)) :
    version = otherVersion ∧ schema = otherSchema ∧ tables.flatten = others.flatten := by
  have few := SqliteFile.few_of_mem_answers firstReads.tables
  have otherFew := SqliteFile.few_of_mem_answers secondReads.tables
  obtain ⟨versions, streams⟩ := prefixFreeOn_bitVec 4 trivial trivial same
  obtain ⟨schemas, rows⟩ := prefixFreeOn_schemaRow.flatMap_append_inj_of_startsNone
    (fun _ _ => trivial) (fun _ _ => trivial) (startsNone_rows few) (startsNone_rows otherFew)
    streams
  have nonempty (row : List SqliteValue) : rowStream row ≠ [] := by
    intro empty
    have lengths := congrArg List.length empty
    rw [rowStream, List.length_append, u64Bytes, length_bigEndian] at lengths
    exact absurd lengths (by simp)
  exact ⟨versions, schemas, prefixFreeOn_rowStream.flatMap_inj nonempty few otherFew rows⟩

/-! ## Contents -/

/-- Two databases with the same version, schema rows and rows in every table. -/
structure SameContents (first second : SqliteFile) : Prop where
  version : first.userVersion = second.userVersion
  schema : first.schema.Perm second.schema
  rows : ∀ name ∈ first.tableNames, ∀ rows others, first.tables name = some rows →
    second.tables name = some others → rows.Perm others

/-- Both databases are read with one version and one schema, and rows at the end
of a table in one of them stand in the other behind that table: the tables in
front of it give the same rows, and so does all that follows. -/
def RowsMoved (first second : SqliteFile) : Prop :=
  ∃ version schema tables others, first.Reads version schema tables ∧
    second.Reads version schema others ∧ (Shifts tables others ∨ Shifts others tables)

theorem tableNames_eq (firstReads : first.Reads version schema tables)
    (secondReads : second.Reads version schema others) :
    first.tableNames = second.tableNames := by
  rw [SqliteFile.tableNames, SqliteFile.tableNames,
    SqliteFile.schemaRows_of_readSchema firstReads.schema,
    SqliteFile.schemaRows_of_readSchema secondReads.schema]

/-- The tables of databases with the same contents give as many rows. -/
theorem lengths_of_perm {names : List Bytes} (firstRead : names.mapM first.answer = some tables)
    (secondRead : names.mapM second.answer = some others)
    (perm : ∀ name ∈ names, ∀ rows others, first.tables name = some rows →
      second.tables name = some others → rows.Perm others) :
    tables.map List.length = others.map List.length := by
  induction names generalizing tables others with
  | nil =>
      cases firstRead
      cases secondRead
      rfl
  | cons name names inductionHypothesis =>
      simp only [List.mapM_cons, Option.bind_eq_bind, Option.bind_eq_some_iff, Option.pure_def,
        Option.some.injEq] at firstRead secondRead
      obtain ⟨rows, answered, tables, readTables, rfl⟩ := firstRead
      obtain ⟨otherRows, otherAnswered, others, readOthers, rfl⟩ := secondRead
      obtain ⟨stored, isStored, rfl⟩ := Option.map_eq_some_iff.mp answered
      obtain ⟨otherStored, isOtherStored, rfl⟩ := Option.map_eq_some_iff.mp otherAnswered
      rw [List.forall_mem_cons] at perm
      rw [List.map_cons, List.map_cons, inductionHypothesis readTables readOthers perm.2,
        (perm_orderBy _ stored).length_eq, (perm_orderBy _ otherStored).length_eq,
        (perm.1 stored otherStored isStored isOtherStored).length_eq]

/-- Tables that give the same rows hold the same rows. -/
theorem perm_of_answers {names : List Bytes} (firstRead : names.mapM first.answer = some tables)
    (secondRead : names.mapM second.answer = some tables) :
    ∀ name ∈ names, ∀ rows others, first.tables name = some rows →
      second.tables name = some others → rows.Perm others := by
  induction names generalizing tables with
  | nil => simp
  | cons name names inductionHypothesis =>
      simp only [List.mapM_cons, Option.bind_eq_bind, Option.bind_eq_some_iff, Option.pure_def,
        Option.some.injEq] at firstRead secondRead
      obtain ⟨rows, answered, tables, readTables, rfl⟩ := firstRead
      obtain ⟨otherRows, otherAnswered, others, readOthers, sameTables⟩ := secondRead
      obtain ⟨rfl, rfl⟩ := List.cons.inj sameTables
      rw [List.forall_mem_cons]
      refine ⟨?_, inductionHypothesis readTables readOthers⟩
      intro stored otherStored isStored isOtherStored
      rw [SqliteFile.answer, isStored, Option.map_some, Option.some.injEq] at answered
      rw [SqliteFile.answer, isOtherStored, Option.map_some, Option.some.injEq] at otherAnswered
      have sorted := perm_orderBy (SqliteEngine.before first.schemaRows name) stored
      rw [answered, ← otherAnswered] at sorted
      exact sorted.symm.trans (perm_orderBy _ otherStored)

/-- Databases that are hashed alike have the same contents, unless rows have
moved over the end of a table. -/
theorem sameContents_iff_not_rowsMoved :
    (∀ bytes, first.logicalStream = some bytes → second.logicalStream = some bytes →
      SameContents first second) ↔ ¬RowsMoved first second := by
  constructor
  · rintro faithful ⟨version, schema, tables, others, firstReads, secondReads, shifts⟩
    have flat : tables.flatten = others.flatten := by
      rcases shifts with shifts | shifts
      · exact shifts.flatten_eq
      · exact shifts.flatten_eq.symm
    have same := faithful _
      (SqliteFile.logicalStream_eq_some_iff.mpr ⟨version, schema, tables, firstReads, rfl⟩)
      (SqliteFile.logicalStream_eq_some_iff.mpr
        ⟨version, schema, others, secondReads, by rw [flat]⟩)
    have otherRead : first.tableNames.mapM second.answer = some others := by
      rw [tableNames_eq firstReads secondReads]
      exact secondReads.tables
    have lengths := lengths_of_perm firstReads.tables otherRead same.rows
    rcases shifts with shifts | shifts
    · exact shifts.lengths_ne lengths
    · exact shifts.lengths_ne lengths.symm
  · intro unmoved bytes firstBytes secondBytes
    obtain ⟨version, schema, tables, firstReads, firstEq⟩ :=
      SqliteFile.logicalStream_eq_some_iff.mp firstBytes
    obtain ⟨otherVersion, otherSchema, others, secondReads, secondEq⟩ :=
      SqliteFile.logicalStream_eq_some_iff.mp secondBytes
    obtain ⟨rfl, rfl, flat⟩ := reads_of_stream_eq firstReads secondReads
      (firstEq.symm.trans secondEq)
    have otherRead : first.tableNames.mapM second.answer = some others := by
      rw [tableNames_eq firstReads secondReads]
      exact secondReads.tables
    have lengths : tables.length = others.length := by
      rw [SqliteFile.length_answers firstReads.tables, SqliteFile.length_answers otherRead]
    rcases (flatten_eq_iff lengths).mp flat with rfl | shifts
    · refine ⟨?_, ?_, perm_of_answers firstReads.tables otherRead⟩
      · rw [SqliteFile.userVersion_of_version firstReads.version,
          SqliteFile.userVersion_of_version secondReads.version]
      · have firstPerm : first.schemaRows.Perm first.schema := perm_orderBy _ _
        have secondPerm : second.schemaRows.Perm second.schema := perm_orderBy _ _
        rw [SqliteFile.schemaRows_of_readSchema firstReads.schema] at firstPerm
        rw [SqliteFile.schemaRows_of_readSchema secondReads.schema] at secondPerm
        exact firstPerm.symm.trans secondPerm
    · exact absurd ⟨version, schema, tables, others, firstReads, secondReads, shifts⟩ unmoved

end Pairs

/-! ## Reuse of a backup -/

/-- A backup that is reused under a digest without collisions is hashed as the
source is. -/
theorem logicalStream_of_reused [SqliteEngine] {δ : Type} [DecidableEq δ] {digest : List UInt8 → δ}
    (collisionFree : Function.Injective digest) {source : SqliteFile} {backup : BackupCandidate}
    {candidates : List (Option BackupCandidate)} {sourceVersion : BitVec 32}
    {sourceTable : Option Bytes}
    (reused : findReusablePreUpgradeBackup digest source candidates sourceVersion sourceTable =
      some (some (some backup))) :
    ∃ bytes, source.logicalStream = some bytes ∧ backup.file.logicalStream = some bytes := by
  obtain ⟨sourceFingerprint, hashed, found⟩ := Option.map_eq_some_iff.mp reused
  obtain ⟨bytes, streamed, rfl⟩ := Option.map_eq_some_iff.mp hashed
  have accepted := List.find?_some found
  simp only [reusablePreUpgradeBackup] at accepted
  cases integrity : backup.quickCheck with
  | none => simp [integrity] at accepted
  | some answer =>
      rw [integrity] at accepted
      dsimp only at accepted
      split at accepted
      · cases accepted
      · obtain ⟨candidate, candidateHashed, same⟩ := (Option.any_eq_true _ _).mp accepted
        obtain ⟨candidateBytes, candidateStreamed, rfl⟩ := Option.map_eq_some_iff.mp candidateHashed
        obtain rfl := collisionFree (eq_of_beq same)
        exact ⟨candidateBytes, streamed, candidateStreamed⟩

/-- Equal streams come from equal contents, and a backup that is reused, under a
digest without collisions, has the contents of the source. -/
structure FingerprintFaithful [SqliteEngine] (source backup : SqliteFile) : Prop where
  streams : ∀ bytes, source.logicalStream = some bytes → backup.logicalStream = some bytes →
    SameContents source backup
  reused : ∀ (δ : Type) [DecidableEq δ] (digest : List UInt8 → δ), Function.Injective digest →
    ∀ (candidates : List (Option BackupCandidate)) (sourceVersion : BitVec 32)
      (sourceTable : Option Bytes) (quickCheck : Option String),
      findReusablePreUpgradeBackup digest source candidates sourceVersion sourceTable =
        some (some (some ⟨backup, quickCheck⟩)) → SameContents source backup

/-- The fingerprint tells two databases apart exactly where no rows have moved over
the end of a table. -/
theorem backup_fingerprint_faithful_iff [SqliteEngine] (source backup : SqliteFile) :
    FingerprintFaithful source backup ↔ ¬RowsMoved source backup := by
  rw [← sameContents_iff_not_rowsMoved]
  constructor
  · intro faithful
    exact faithful.streams
  · intro streams
    refine ⟨streams, ?_⟩
    intro δ _ digest collisionFree candidates sourceVersion sourceTable quickCheck reused
    obtain ⟨bytes, sourceBytes, backupBytes⟩ := logicalStream_of_reused collisionFree reused
    exact streams bytes sourceBytes backupBytes

/-! ## A row at the end of a table -/

/-- Tables of one column. -/
@[reducible]
def oneColumn : SqliteEngine where
  columnCount := fun _ _ => 1
  bounded := fun _ _ => by decide
  before := fun _ _ _ _ => true

/-- The schema of two tables `a` and `b`. -/
def twoTableSchema : List SchemaRow :=
  [⟨⟨tableType, by decide⟩, ⟨[0x61], by decide⟩, ⟨[0x61], by decide⟩, 2,
      some ⟨"CREATE TABLE a(x)".toUTF8.toList, by decide +kernel⟩⟩,
    ⟨⟨tableType, by decide⟩, ⟨[0x62], by decide⟩, ⟨[0x62], by decide⟩, 3,
      some ⟨"CREATE TABLE b(x)".toUTF8.toList, by decide +kernel⟩⟩]

/-- The rows of the tables `a` and `b`. -/
def twoTables (first second : List SqliteValue) (name : Bytes) : List (List SqliteValue) :=
  (if name.val == [0x61] then first else second).map fun value => [value]

/-- A database with the tables `a` and `b`. -/
def twoTableFile (first second : List SqliteValue) : @SqliteFile oneColumn :=
  @SqliteFile.mk oneColumn 2 twoTableSchema (fun name => some (twoTables first second name)) (by
    rintro name rows ⟨⟩ row member
    obtain ⟨value, -, rfl⟩ := List.mem_map.mp member
    rfl)

/-- A row that ends one table or starts the next is hashed alike. -/
theorem backup_fingerprint_moves_row :
    ¬∀ (engine : SqliteEngine) (source backup : @SqliteFile engine),
      @FingerprintFaithful engine source backup := by
  intro faithful
  have unmoved := (@sameContents_iff_not_rowsMoved oneColumn _ _).mp
    (@FingerprintFaithful.streams oneColumn _ _
      (faithful oneColumn (twoTableFile [.integer 1] []) (twoTableFile [] [.integer 1])))
  have version : (if (2 : BitVec 32).msb then none else some (2 : BitVec 32)) = some 2 := by
    decide
  have readable : (orderBy SchemaRow.before twoTableSchema).all SchemaRow.isReadable = true := by
    decide +kernel
  have sorted : orderBy SchemaRow.before twoTableSchema = twoTableSchema := by
    decide +kernel
  have reads : ∀ {first second : List SqliteValue} {tables : List (List (List SqliteValue))},
      @SqliteFile.answers oneColumn (twoTableFile first second) = some tables →
      @SqliteFile.Reads oneColumn (twoTableFile first second) 2 twoTableSchema tables :=
    fun answered => @SqliteFile.Reads.mk oneColumn _ _ _ _ version
      ((if_pos readable).trans (congrArg some sorted)) answered
  refine unmoved ⟨2, twoTableSchema, [[[.integer 1]], []], [[], [[.integer 1]]], reads rfl,
    reads rfl, Or.inl ?_⟩
  exact ⟨[], [], [[.integer 1]], [[]], [[[.integer 1]]], by simp, rfl, rfl, rfl⟩

end LocalHold
