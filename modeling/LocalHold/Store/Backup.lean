import LocalHold.Store.Maintenance

/-!
# Backup and restore

The operations of `backup.rs`: the online copy, private staging and publication
without clobbering, the recovery snapshot of a restore, the replacement of the
database and its rollback, and the leases of `sqlite_lease.rs`.
-/

namespace LocalHold.Maintenance

open Durable Transition.Interrupts Transition.Interrupts.Interruptible

/-! ## Options and reports -/

structure BackupOptions where
  databasePath : Path
  destination : Path
deriving DecidableEq

structure RestoreOptions where
  databasePath : Path
  backupPath : Path
  embeddingDimensions : Nat
  expectedProfile : Option EmbeddingProfile
  dryRun : Bool
  confirmed : Bool
deriving DecidableEq

structure MaintenanceReport where
  schemaVersion : Nat
  operation : String
  status : String
  source : String
  destination : String
  dryRun : Bool
  databaseReplaced : Bool
  recoveryPath : Option String
  databaseSchemaVersion : Option Nat
  embeddingProfile : Option EmbeddingProfile
  memories : Option Nat
  embeddings : Option Nat
  bytes : Option Nat
  message : String
  exitCode : Int
deriving DecidableEq

structure Inspection where
  profile : Option EmbeddingProfile
  memories : Nat
  embeddings : Nat
  bytes : Nat
deriving DecidableEq

/-- The hooks of the tests; production uses the default. -/
structure CopyPolicy where
  abortAfterStepsForTest : Option Nat := none
  diskFullAfterStepsForTest : Option Nat := none
deriving DecidableEq

def reportSchemaVersion : Nat := 1

def sqliteSchemaVersion : Nat := 3

/-- `COPY_TIMEOUT`, in milliseconds. -/
def copyTimeout : Nat := 30000

structure SuccessReport where
  operation : String
  source : Path
  destination : Path
  dryRun : Bool
  databaseReplaced : Bool
  recoveryPath : Option Path
  message : String

def successReport (details : SuccessReport) (inspection : Inspection) : MaintenanceReport where
  schemaVersion := reportSchemaVersion
  operation := details.operation
  status := if details.dryRun then "validated" else "ok"
  source := details.source.display
  destination := details.destination.display
  dryRun := details.dryRun
  databaseReplaced := details.databaseReplaced
  recoveryPath := details.recoveryPath.map Path.display
  databaseSchemaVersion := some sqliteSchemaVersion
  embeddingProfile := inspection.profile
  memories := some inspection.memories
  embeddings := some inspection.embeddings
  bytes := some inspection.bytes
  message := details.message
  exitCode := 0

def failureReport (operation : String) (source destination : Path) (dryRun : Bool)
    (failure : MaintenanceFailure) : MaintenanceReport where
  schemaVersion := reportSchemaVersion
  operation := operation
  status := failure.status
  source := source.display
  destination := destination.display
  dryRun := dryRun
  databaseReplaced := false
  recoveryPath := failure.recoveryPath.map Path.display
  databaseSchemaVersion := none
  embeddingProfile := none
  memories := none
  embeddings := none
  bytes := none
  message := failure.message
  exitCode := 1

/-! ## Files -/

/-- Do something for every element. -/
def forEach {α : Type} (action : α → Work Unit) : List α → Work Unit
  | [] => pure ()
  | element :: rest => do
    action element
    forEach action rest

/-- A removal whose error is only logged. -/
def removeIfExists (path : Path) : Work Unit := do
  let _ ← removeFile path
  pure ()

def createSecureEmptyFile (path : Path) : Work Unit :=
  orFail (createNew path) fun error => .failed s!"cannot create {path.display}: {error.text}"

def syncFile (path : Path) : Work Unit :=
  orFail (syncAll path) fun error => .failed s!"cannot durably sync {path.display}: {error.text}"

def syncParent (path : Path) : Work Unit :=
  orFail (syncDirectory path) fun error =>
    .failed s!"cannot durably sync directory {path.parent}: {error.text}"

/-- The identity of the second path: of its file, or of its name in its
directory. -/
def resolveSecond (second : Path) (present : Bool) : Work Path :=
  if present then
    orFail (canonicalize second) fun error =>
      .failed s!"cannot resolve {second.display}: {error.text}"
  else
    orFail (io fun disk => (.ok second, disk)) fun error =>
      .failed s!"cannot resolve destination directory {second.parent}: {error.text}"

def ensureDistinctPaths (first second : Path) : Work Unit := do
  let firstResolved ← orFail (canonicalize first) fun error =>
    .failed s!"cannot resolve {first.display}: {error.text}"
  let present ← pathExists second
  let secondResolved ← resolveSecond second present
  require (firstResolved ≠ secondResolved)
    (.invalid "source and destination resolve to the same file")

def ensureNewDestination (destination : Path) : Work Unit := do
  let result ← metadata destination
  match result with
  | .ok _ =>
    fail
      { status := "refused"
        message := s!"destination {destination.display} already exists; choose a new backup path"
        recoveryPath := none }
  | .error .notFound => pure ()
  | .error error =>
    fail (.failed s!"cannot inspect destination {destination.display}: {error.text}")

def publishNoClobber (temporary destination : Path) : Work Unit := do
  orFail (hardLink temporary destination) fun error =>
    match error with
    | .alreadyExists =>
      { status := "refused"
        message := s!"destination {destination.display} appeared during the operation " ++
          "and was not overwritten"
        recoveryPath := none }
    | error => .failed s!"cannot publish {destination.display}: {error.text}"
  syncParent destination
  removeIfExists temporary

/-! ## Leases -/

def openLockFile (database : Path) : Work Unit := do
  permitted fun error => storeFailure (databaseError error)
  orFail (openCreate (lockPath database)) fun error => storeFailure (databaseError error.text)
  permitted fun error => storeFailure (databaseError error)

/-- `SqliteDatabaseLease::shared`. -/
def leaseShared (database : Path) : Work Unit := do
  openLockFile database
  permitted fun error => storeFailure (databaseError error)

section Engine

variable [Sqlite]

/-! ## Copies -/

/-- One step of the online backup and what the loop makes of it. -/
def copyTurn (source destination : Path) (started : Nat) (policy : CopyPolicy) (steps : Nat)
    (answer : Answer) (before : World) : Turn Nat MaintenanceFailure Unit × World :=
  let world := (before.meanwhile answer).opened answer source
  let abandoned := world.abandon destination answer.left
  let broken (message : String) := (Turn.stop (.error (.failed message)), abandoned)
  match answer.refusal with
  | some message => broken s!"copy database pages: {message}"
  | none =>
    match readDatabase world.disk source with
    | .error message => broken s!"copy database pages: {message}"
    | .ok content =>
      let steps := min (steps + 1) (2 ^ 64 - 1)
      if policy.abortAfterStepsForTest.any (· ≤ steps) ∧ answer.outcome ≠ .done then
        broken "injected interrupted restore"
      else if policy.diskFullAfterStepsForTest.any (· ≤ steps) ∧ answer.outcome ≠ .done then
        broken "copy database pages: database or disk is full"
      else
        match answer.outcome with
        | .done =>
          (.stop (.ok ()),
            { world with
              disk := placeBundle world.disk destination (.single (Sqlite.image content)) })
        | .more => (.again steps, abandoned)
        | .busy | .locked =>
          if copyTimeout ≤ answer.clock - started then
            (.stop (.error
              { status := "blocked"
                message := "SQLite remained busy for 30 seconds while copying; " ++
                  "stop competing writers and retry"
                recoveryPath := none }), abandoned)
          else
            (.again steps, abandoned)
        | .unsupported => broken "SQLite returned an unsupported online-backup result"

def copyDatabase (source destination : Path) (policy : CopyPolicy) : Work Unit := do
  configure "initialize online backup"
  let started ← ask fun answer world => (answer.clock, world)
  loop (copyTurn source destination started policy) 0

def snapshotPath (source destination : Path) (policy : CopyPolicy) : Work Unit := do
  let _ ← orFail (metadata source) fun error =>
    .failed s!"cannot inspect {source.display}: {error.text}"
  registerExtension
  openReadOnly source "open backup source"
  configure "configure backup source"
  createSecureEmptyFile destination
  openReadWrite destination "open backup destination"
  configure "configure backup destination"
  copyDatabase source destination policy
  syncFile destination

def validateIntegrity (path : Path) : Work Unit := do
  configure "prepare integrity check"
  configure "run integrity check"
  let messages ← query path Sqlite.integrityCheck (sqliteFailure "read integrity check")
  let reported := String.intercalate "; " messages
  require (messages = ["ok"]) (.invalid s!"SQLite integrity_check failed: {reported}")

def countRows (path : Path) (table : String) : Work Nat := do
  let count ← query path (fun content => Sqlite.countRows content table)
    (sqliteFailure "count database rows")
  require (0 ≤ count) (.invalid s!"table {table} returned a negative row count")
  pure count.toNat

/-- The profile that the configuration selects has to be the stored one, where
both are known. -/
def profileMismatch (expected stored : EmbeddingProfile) : String :=
  s!"embedding profile mismatch: backup uses {stored.provider} model '{stored.model}' " ++
    s!"at '{stored.endpoint}' with {stored.dimensions} dimensions, but config selects " ++
    s!"{expected.provider} model '{expected.model}' at '{expected.endpoint}' " ++
    s!"with {expected.dimensions} dimensions"

def checkProfile (expected stored : Option EmbeddingProfile) : Except MaintenanceFailure Unit :=
  match expected, stored with
  | some expected, some stored =>
    if expected ≠ stored then .error (.invalid (profileMismatch expected stored)) else .ok ()
  | _, _ => .ok ()

def inspectPath (path : Path) (embeddingDimensions : Nat)
    (expectedProfile : Option EmbeddingProfile) : Work Inspection := do
  registerExtension
  openReadOnly path "open database for validation"
  configure "enable read-only validation"
  configure "enable foreign-key validation"
  validateIntegrity path
  query path (fun content => Sqlite.validateSqliteSourceSchema content embeddingDimensions)
    .invalid
  let profile ← query path Sqlite.readEmbeddingProfile storeFailure
  ofExcept (checkProfile expectedProfile profile)
  let memories ← countRows path "memories"
  let embeddings ← countRows path "memory_embedding_map"
  require (¬(profile.isNone ∧ 0 < embeddings))
    (.invalid ("backup contains embeddings but no recorded embedding profile; " ++
      "reindex the source before backing it up"))
  let bytes ← orFail (metadata path) fun error =>
    .failed s!"cannot stat validated backup {path.display}: {error.text}"
  pure
    { profile := profile
      memories := memories
      embeddings := embeddings
      bytes := bytes }

def inspectPathUsingStoredDimensions (path : Path) : Work Inspection := do
  registerExtension
  openReadOnly path "open database dimension metadata"
  let stored ← query path Sqlite.existingEmbeddingDimensions storeFailure
  match stored with
  | some dimensions => inspectPath path dimensions none
  | none =>
    fail (.invalid "database is missing the managed vector table dimension metadata")

def backupSync (options : BackupOptions) (policy : CopyPolicy) : Work MaintenanceReport := do
  ensureDistinctPaths options.databasePath options.destination
  ensureNewDestination options.destination
  leaseShared options.databasePath
  let temporary ← temporaryPath options.destination "backup"
  afterwards
    (do
      snapshotPath options.databasePath temporary policy
      let inspection ← inspectPathUsingStoredDimensions temporary
      publishNoClobber temporary options.destination
      pure (successReport
        { operation := "backup"
          source := options.databasePath
          destination := options.destination
          dryRun := false
          databaseReplaced := false
          recoveryPath := none
          message := "consistent online backup created and validated" }
        inspection))
    (removeIfExists temporary)

/-- A failure becomes a report. -/
def reported (operation : String) (source destination : Path) (dryRun : Bool)
    (work : Work MaintenanceReport) : Work MaintenanceReport := do
  let result ← attempt work
  match result with
  | .ok report => pure report
  | .error failure => pure (failureReport operation source destination dryRun failure)

def backup (options : BackupOptions) : Work MaintenanceReport :=
  reported "backup" options.databasePath options.destination false (backupSync options {})

/-! ## Restore -/

end Engine

end LocalHold.Maintenance
