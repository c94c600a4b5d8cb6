import LocalHold.Durable.Disk
import LocalHold.Store.Database
import LocalHold.Transition.Interrupts

/-!
# The world of backups and restores

The calls of `backup.rs` and `sqlite_lease.rs` to the file system, to SQLite
and to the clock.  A call that the world refuses reports an error; a write that
does not finish may leave anything behind.  Between two calls other processes
may put files where they like.

What SQLite reads in the files of a database is a parameter, with the functions
of the crate that only compute on what was read: the schema checks, the
migration of a stage, the embedding profile and the row counts.  Reading a
database may leave a log and its index beside it.
-/

namespace LocalHold.Maintenance

open Durable Transition.Interrupts Transition.Interrupts.Interruptible

/-- The content of a file. -/
abbrev Bytes : Type :=
  List UInt8

/-- A resolved path. -/
structure Path where
  parent : String
  fileName : String
deriving DecidableEq, Repr

/-- Append to the last component. -/
def Path.push (path : Path) (suffix : String) : Path where
  parent := path.parent
  fileName := path.fileName ++ suffix

def Path.display (path : Path) : String :=
  path.parent ++ "/" ++ path.fileName

def sqliteSidecar (database : Path) (suffix : String) : Path :=
  database.push suffix

def sidecarSuffixes : List String :=
  ["-wal", "-shm", "-journal"]

/-- The files of a database. -/
structure Bundle where
  main : Bytes
  wal : Option Bytes
  shm : Option Bytes
  journal : Option Bytes
deriving DecidableEq

/-- A database in one file. -/
def Bundle.single (main : Bytes) : Bundle where
  main := main
  wal := none
  shm := none
  journal := none

/-- SQLite and the functions of the crate on the content of a database.  A
content is what a connection reads, `image` the file that a finished copy of it
leaves.  The index of a log only repeats the log, and an empty log is none. -/
class Sqlite where
  Content : Type
  read : Bundle → Except String Content
  image : Content → Bytes
  read_image : ∀ content, read (.single (image content)) = .ok content
  read_index : ∀ bundle index, read { bundle with shm := index } = read bundle
  read_emptyLog : ∀ bundle, bundle.wal = none → read { bundle with wal := some [] } = read bundle
  userVersion : Content → Except String Nat
  validateSqliteSourceSchema : Content → Nat → Except String Unit
  validateSqliteV1SourceSchemaForUpgrade : Content → Nat → Except String Unit
  validateSqliteV2SourceSchemaForUpgrade : Content → Nat → Except String Unit
  initSchema : Content → Nat → Except String Content
  existingEmbeddingDimensions : Content → Except String (Option Nat)
  readEmbeddingProfile : Content → Except String (Option EmbeddingProfile)
  integrityCheck : Content → Except String (List String)
  countRows : Content → String → Except String Int

/-- A database that is a header byte and its content, with nothing to object to. -/
@[reducible]
def byteSqlite : Sqlite where
  Content := Bytes
  read bundle :=
    match bundle.main with
    | 83 :: content => .ok content
    | _ => .error "file is not a database"
  image content := 83 :: content
  read_image _ := rfl
  read_index _ _ := rfl
  read_emptyLog _ _ := rfl
  userVersion _ := .ok 3
  validateSqliteSourceSchema _ _ := .ok ()
  validateSqliteV1SourceSchemaForUpgrade _ _ := .ok ()
  validateSqliteV2SourceSchemaForUpgrade _ _ := .ok ()
  initSchema content _ := .ok content
  existingEmbeddingDimensions _ := .ok (some 3)
  readEmbeddingProfile _ := .ok none
  integrityCheck _ := .ok ["ok"]
  countRows _ _ := .ok 0

/-! ## Answers -/

/-- What a step of an online backup reports. -/
inductive StepResult where
  | done
  | more
  | busy
  | locked
  | unsupported
deriving DecidableEq, Repr

/-- What the world has to say to one call: the error it reports in place of the
call, what an unfinished write or a read leaves, and what others did before. -/
structure Answer where
  refusal : Option String := none
  left : Option Bundle := none
  emptyLog : Bool := false
  index : Option Bytes := none
  outcome : StepResult := .done
  clock : Nat := 0
  timestamp : String := ""
  inUse : Bool := false
  meanwhile : List (Path × Option Bytes) := []

/-- The disk and what the process knows of itself. -/
structure World where
  disk : Disk Path Bytes
  sequence : Nat
  processId : Nat

/-- A file that others put at a path, or a removal. -/
def othersPut (path : Path) (entry : Entry Bytes) (change : Path × Option Bytes) : Entry Bytes :=
  if change.1 = path then entry.become (change.2.map fun bytes => ⟨bytes, false⟩) else entry

/-- What others did to an entry. -/
def Answer.meddle (answer : Answer) (path : Path) (entry : Entry Bytes) : Entry Bytes :=
  answer.meanwhile.foldl (othersPut path) entry

/-- The world after others had their turn. -/
def World.meanwhile (world : World) (answer : Answer) : World :=
  { world with disk := fun path => answer.meddle path (world.disk path) }

/-- An error of the file system. -/
inductive IoError where
  | notFound
  | alreadyExists
  | other (message : String)
deriving DecidableEq, Repr

def IoError.text : IoError → String
  | .notFound => "No such file or directory (os error 2)"
  | .alreadyExists => "File exists (os error 17)"
  | .other message => message

/-- A failure of a maintenance operation. -/
structure MaintenanceFailure where
  status : String
  message : String
  recoveryPath : Option Path
deriving DecidableEq, Repr

namespace MaintenanceFailure

def failed (message : String) : MaintenanceFailure where
  status := "failed"
  message := message
  recoveryPath := none

def invalid (message : String) : MaintenanceFailure where
  status := "invalid"
  message := message
  recoveryPath := none

end MaintenanceFailure

def storeFailure (error : String) : MaintenanceFailure :=
  .failed error

def sqliteFailure (context error : String) : MaintenanceFailure :=
  .failed s!"{context}: {error}"

/-- The text of a `StoreError` around an error of the database. -/
def databaseError (error : String) : String :=
  s!"database error: {error}"

/-- A program of this module. -/
abbrev Work (α : Type) : Type :=
  Interruptible Answer World MaintenanceFailure α

/-- A call, after what others did. -/
def ask {α : Type} (act : Answer → World → α × World) : Work α :=
  call fun answer world => act answer (world.meanwhile answer)

/-- A call to the file system: refused, or done. -/
def io {α : Type} (act : Disk Path Bytes → Except IoError α × Disk Path Bytes) :
    Work (Except IoError α) :=
  ask fun answer world =>
    match answer.refusal with
    | some message => (.error (.other message), world)
    | none => ((act world.disk).1, { world with disk := (act world.disk).2 })

/-- An error becomes a failure. -/
def orFail {α : Type} (program : Work (Except IoError α))
    (failure : IoError → MaintenanceFailure) : Work α := do
  let result ← program
  match result with
  | .ok value => pure value
  | .error error => fail (failure error)

/-- Go on only under a condition. -/
def require (condition : Prop) [Decidable condition] (failure : MaintenanceFailure) : Work Unit :=
  if condition then pure () else fail failure

/-- A call that only can be refused. -/
def permitted (failure : String → MaintenanceFailure) : Work Unit :=
  orFail (io fun disk => (.ok (), disk)) fun error => failure error.text

/-! ## Files -/

def isPresent (disk : Disk Path Bytes) (path : Path) : Bool :=
  (disk path).now.isSome

/-- `Path::metadata`: the length of the file. -/
def metadata (path : Path) : Work (Except IoError Nat) :=
  io fun disk =>
    match (disk path).content with
    | some bytes => (.ok bytes.length, disk)
    | none => (.error .notFound, disk)

/-- `Path::exists`: an error counts as absence. -/
def pathExists (path : Path) : Work Bool := do
  let result ← metadata path
  match result with
  | .ok _ => pure true
  | .error _ => pure false

def canonicalize (path : Path) : Work (Except IoError Path) :=
  io fun disk =>
    if isPresent disk path then (.ok path, disk) else (.error .notFound, disk)

/-- `create_new`. -/
def createNew (path : Path) : Work (Except IoError Unit) :=
  io fun disk =>
    if isPresent disk path then
      (.error .alreadyExists, disk)
    else
      (.ok (), disk.update path fun entry => entry.become (some ⟨[], false⟩))

/-- Open a file, creating it if it is missing. -/
def openCreate (path : Path) : Work (Except IoError Unit) :=
  io fun disk =>
    if isPresent disk path then
      (.ok (), disk)
    else
      (.ok (), disk.update path fun entry => entry.become (some ⟨[], false⟩))

/-- A second name for a file.  The file is not written again under either
name, so the two names may hold copies. -/
def hardLink (original link : Path) : Work (Except IoError Unit) :=
  io fun disk =>
    match (disk original).now with
    | none => (.error .notFound, disk)
    | some file =>
      if isPresent disk link then
        (.error .alreadyExists, disk)
      else
        (.ok (), disk.update link fun entry => entry.become (some file))

def removeFile (path : Path) : Work (Except IoError Unit) :=
  io fun disk =>
    if isPresent disk path then
      (.ok (), disk.update path fun entry => entry.become none)
    else
      (.error .notFound, disk)

/-- `sync_all` on a file. -/
def syncAll (path : Path) : Work (Except IoError Unit) :=
  io fun disk =>
    if isPresent disk path then
      (.ok (), disk.update path Entry.harden)
    else
      (.error .notFound, disk)

/-- `sync_all` on the directory of a path. -/
def syncDirectory (path : Path) : Work (Except IoError Unit) :=
  io fun disk => (.ok (), disk.settleWhere fun other => other.parent == path.parent)

/-- The files of the database at a path, with what is found at each path. -/
def bundleFound (found : Path → Option Bytes) (database : Path) : Option Bundle :=
  (found database).map fun main =>
    { main := main
      wal := found (sqliteSidecar database "-wal")
      shm := found (sqliteSidecar database "-shm")
      journal := found (sqliteSidecar database "-journal") }

/-- The files of the database at a path, as programs read them. -/
def bundleAt (disk : Disk Path Bytes) (database : Path) : Option Bundle :=
  bundleFound (fun path => (disk path).content) database

/-- Write the files of a database. -/
def placeBundle (disk : Disk Path Bytes) (database : Path) (bundle : Bundle) : Disk Path Bytes :=
  let sidecar (bytes : Option Bytes) (entry : Entry Bytes) : Entry Bytes :=
    entry.become (bytes.map fun content => ⟨content, false⟩)
  (((disk.update database fun entry => entry.rewrite bundle.main).update
    (sqliteSidecar database "-wal") (sidecar bundle.wal)).update
    (sqliteSidecar database "-shm") (sidecar bundle.shm)).update
    (sqliteSidecar database "-journal") (sidecar bundle.journal)

/-- What a write that did not finish leaves. -/
def World.abandon (world : World) (database : Path) (left : Option Bundle) : World :=
  match left with
  | some bundle => { world with disk := placeBundle world.disk database bundle }
  | none => world

/-- What reading the database at a path leaves beside it: an empty log where
there was none, and an index of any content.  Nobody removes them.  An empty
file has nothing that a power loss could change. -/
def World.opened (world : World) (answer : Answer) (database : Path) : World :=
  if isPresent world.disk database then
    { world with
      disk := (world.disk.update (sqliteSidecar database "-wal") fun entry =>
          if answer.emptyLog then entry.appear [] else entry).update
        (sqliteSidecar database "-shm") fun entry =>
          match answer.index with
          | some bytes => entry.become (some ⟨bytes, false⟩)
          | none => entry }
  else world

/-- A call that reads the database at a path. -/
def reading {α : Type} (database : Path) (act : Disk Path Bytes → Except IoError α) :
    Work (Except IoError α) :=
  ask fun answer world =>
    let opened := world.opened answer database
    match answer.refusal with
    | some message => (.error (.other message), opened)
    | none => (act opened.disk, opened)

section Engine

variable [Sqlite]

/-- What a connection reads in the files at a path. -/
def readDatabase (disk : Disk Path Bytes) (database : Path) : Except String Sqlite.Content :=
  match bundleAt disk database with
  | some bundle => Sqlite.read bundle
  | none => .error "unable to open database file"

/-- `SqliteStore::register_extension`. -/
def registerExtension : Work Unit :=
  permitted storeFailure

/-- A setting of a connection. -/
def configure (context : String) : Work Unit :=
  permitted (sqliteFailure context)

/-- Open the file of a database to read it. -/
def openReadOnly (database : Path) (context : String) : Work Unit :=
  orFail
    (reading database fun disk =>
      if isPresent disk database then
        .ok ()
      else
        .error (.other "unable to open database file"))
    fun error => sqliteFailure context error.text

/-- Open the file of a database to write it, creating it if it is missing. -/
def openReadWrite (database : Path) (context : String) : Work Unit :=
  orFail (openCreate database) fun error => sqliteFailure context error.text

/-- Compute on what a connection reads. -/
def query {α : Type} (database : Path) (compute : Sqlite.Content → Except String α)
    (failure : String → MaintenanceFailure) : Work α :=
  orFail
    (reading database fun disk =>
      (readDatabase disk database >>= compute).mapError IoError.other)
    fun error => failure error.text

end Engine

/-! ## Names -/

/-- Draw a number from `TEMPORARY_SEQUENCE`. -/
def temporaryPath (base : Path) (label : String) : Work Path :=
  fun script world =>
    (.done (base.push (".localhold-" ++ (label ++ s!"-{world.processId}-{world.sequence}"))),
      script, { world with sequence := world.sequence + 1 })

/-- The recovery name of a moment, a process and a number. -/
def recoveryName (database : Path) (timestamp : String) (processId sequence : Nat) : Path :=
  database.push (".pre-restore-" ++ (timestamp ++ s!"-{processId}-{sequence}.bak"))

def recoveryPath (database : Path) : Work Path :=
  ask fun answer world =>
    (recoveryName database answer.timestamp world.processId world.sequence,
      { world with sequence := world.sequence + 1 })

/-- The sidecar that carries the lock. -/
def lockPath (database : Path) : Path :=
  database.push ".localhold.lock"

/-! ## Two databases -/

def samplePath (fileName : String) : Path where
  parent := "/data"
  fileName := fileName

/-- A database and a file to restore from, both on the medium. -/
def sampleWorld : World where
  disk path :=
    if path = samplePath "hold.db" then ⟨some ⟨[83, 1], true⟩, []⟩
    else if path = samplePath "saved.db" then ⟨some ⟨[83, 2], true⟩, []⟩
    else ⟨none, []⟩
  sequence := 0
  processId := 7

/-- A call without troubles, after which a log and an index lie beside what was
read. -/
def leavingSidecars : Answer where
  emptyLog := true
  index := some [1]

end LocalHold.Maintenance
