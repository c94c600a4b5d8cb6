import LocalHold.Store.Backup

/-!
# What the maintenance programs leave alone

A program is confined to a set of paths when every assertion survives it that
is stable under the turns of other processes, under directory syncs and under
any change of those paths.  Calls are confined to the path they name, and the
operations to the files of the databases they write and to private names beside
them.  What a reader of another database leaves beside that database is not
among these paths: its assertions have to endure the reading.
-/

namespace LocalHold.Maintenance

open Durable Transition.Interrupts Transition.Interrupts.Interruptible

/-! ## Names -/

@[simp]
theorem push_inj {base : Path} {first second : String} :
    base.push first = base.push second ↔ first = second := by
  constructor
  · intro same
    exact (String.append_right_inj base.fileName).mp (congrArg Path.fileName same)
  · rintro rfl
    rfl

@[simp]
theorem push_empty (base : Path) : base.push "" = base := by
  simp [Path.push]

theorem push_push (base : Path) (first second : String) :
    (base.push first).push second = base.push (first ++ second) := by
  simp [Path.push, String.append_assoc]

/-- The files of the database at a path. -/
def InBundle (database path : Path) : Prop :=
  path = database ∨ ∃ suffix ∈ sidecarSuffixes, path = sqliteSidecar database suffix

/-- The files that reading the database at a path may leave beside it. -/
def ReadFiles (database path : Path) : Prop :=
  path = sqliteSidecar database "-wal" ∨ path = sqliteSidecar database "-shm"

/-- The names that go on from a path with a stem. -/
def Private (base : Path) (stem : String) (path : Path) : Prop :=
  ∃ tail, path = base.push (stem ++ tail)

theorem InBundle.main (database : Path) : InBundle database database :=
  Or.inl rfl

theorem InBundle.sidecar (database : Path) (suffix : String) (listed : suffix ∈ sidecarSuffixes) :
    InBundle database (sqliteSidecar database suffix) :=
  Or.inr ⟨suffix, listed, rfl⟩

theorem ReadFiles.inBundle {database path : Path} (member : ReadFiles database path) :
    InBundle database path := by
  rcases member with rfl | rfl
  · exact InBundle.sidecar database "-wal" (by simp [sidecarSuffixes])
  · exact InBundle.sidecar database "-shm" (by simp [sidecarSuffixes])

/-- The files beside a private name are private. -/
theorem InBundle.inside {base path : Path} {stem tail : String}
    (member : InBundle (base.push (stem ++ tail)) path) : Private base stem path := by
  rcases member with rfl | ⟨suffix, _, rfl⟩
  · exact ⟨tail, rfl⟩
  · refine ⟨tail ++ suffix, ?_⟩
    unfold sqliteSidecar
    rw [push_push, String.append_assoc]

/-- The files of a database have no dotted names. -/
theorem InBundle.apart {database path : Path} {stem : String} (dotted : '.' :: [] <+: stem.toList)
    (member : InBundle database path) : ¬ Private database stem path := by
  rintro ⟨tail, same⟩
  have headed : ∃ letters, (stem ++ tail).toList = '.' :: letters := by
    rcases dotted with ⟨letters, spelled⟩
    refine ⟨letters ++ tail.toList, ?_⟩
    rw [String.toList_append, ← spelled]
    rfl
  rcases headed with ⟨letters, spelled⟩
  rcases member with rfl | ⟨suffix, listed, rfl⟩
  · have empty : path.push "" = path.push (stem ++ tail) := by
      rw [push_empty]
      exact same
    rw [push_inj] at empty
    rw [← empty] at spelled
    simp at spelled
  · unfold sqliteSidecar at same
    rw [push_inj] at same
    rw [← same] at spelled
    simp only [sidecarSuffixes, List.mem_cons, List.not_mem_nil, or_false] at listed
    rcases listed with rfl | rfl | rfl
    · simp at spelled
    · simp at spelled
    · simp at spelled

/-- Recovery names are apart from staging names and from the lock. -/
theorem Private.recovery_apart {base path : Path} (member : Private base ".pre-restore-" path) :
    ¬ Private base ".localhold" path := by
  rcases member with ⟨tail, rfl⟩
  rintro ⟨other, same⟩
  rw [push_inj] at same
  have letters := congrArg String.toList same
  simp at letters

theorem temporary_private (base : Path) (rest : String) :
    base.push (".localhold-" ++ rest) = base.push (".localhold" ++ ("-" ++ rest)) := by
  rw [← String.append_assoc]
  rfl

theorem lockPath_private (database : Path) : Private database ".localhold" (lockPath database) :=
  ⟨".lock", rfl⟩

/-! ## Assertions and confinement -/

/-- What a program does that writes only some paths: other entries may settle,
and numbers may be drawn. -/
structure Within (own : Path → Prop) (world reached : World) : Prop where
  sequence : world.sequence ≤ reached.sequence
  processId : reached.processId = world.processId
  outside : ∀ path, ¬ own path → reached.disk path = world.disk path ∨
    reached.disk path = (world.disk path).settle

/-- An assertion that survives the turns of others and writes to some paths. -/
structure Aside (own : Path → Prop) (kept : List Answer → World → Prop) : Prop where
  turn : ∀ answer rest world, kept (answer :: rest) world → kept rest (world.meanwhile answer)
  change : ∀ rest world reached, kept rest world → Within own world reached → kept rest reached

/-- An assertion that survives the reading of a database. -/
def Endures (database : Path) (kept : List Answer → World → Prop) : Prop :=
  ∀ answer rest world, kept rest world → kept rest (world.opened answer database)

/-- A program that writes nowhere else. -/
def Confined {α : Type} (own : Path → Prop) (program : Work α) : Prop :=
  ∀ kept, Aside own kept → Keeps kept program

/-- A program that only writes the disk. -/
theorem Within.disk {own : Path → Prop} {world : World} {disk : Disk Path Bytes}
    (outside : ∀ path, ¬ own path → disk path = world.disk path ∨
      disk path = (world.disk path).settle) :
    Within own world { world with disk := disk } where
  sequence := le_rfl
  processId := rfl
  outside := outside

theorem Within.refl {own : Path → Prop} (world : World) : Within own world world :=
  Within.disk fun _ _ => Or.inl rfl

theorem Aside.mono {own own' : Path → Prop} {kept : List Answer → World → Prop}
    (aside : Aside own' kept) (wider : ∀ path, own path → own' path) : Aside own kept where
  turn := aside.turn
  change rest world reached holds within :=
    aside.change rest world reached holds
      { sequence := within.sequence
        processId := within.processId
        outside := fun path foreign =>
          within.outside path fun mine => foreign (wider path mine) }

theorem Aside.both {own : Path → Prop} {first second : List Answer → World → Prop}
    (left : Aside own first) (right : Aside own second) :
    Aside own (fun rest world => first rest world ∧ second rest world) where
  turn answer rest world holds :=
    ⟨left.turn answer rest world holds.1, right.turn answer rest world holds.2⟩
  change rest world reached holds within :=
    ⟨left.change rest world reached holds.1 within,
      right.change rest world reached holds.2 within⟩

/-- A program that writes nowhere else, and reads the database at a path. -/
def Reader {α : Type} (source : Path) (own : Path → Prop) (program : Work α) : Prop :=
  ∀ kept, Aside own kept → Endures source kept → Keeps kept program

/-- What is left beside a database that is read. -/
theorem opened_cases (world : World) (answer : Answer) (database : Path) :
    world.opened answer database = world ∨
      (world.disk database).now.isSome ∧
        ∃ disk, world.opened answer database = { world with disk := disk } ∧
          (disk (sqliteSidecar database "-wal") = world.disk (sqliteSidecar database "-wal") ∨
            disk (sqliteSidecar database "-wal") =
              (world.disk (sqliteSidecar database "-wal")).appear []) ∧
          ∀ path, ¬ ReadFiles database path → disk path = world.disk path := by
  unfold World.opened
  by_cases present : isPresent world.disk database
  · have apart : sqliteSidecar database "-wal" ≠ sqliteSidecar database "-shm" := by
      simp [sqliteSidecar]
    rw [if_pos present]
    refine Or.inr ⟨present, _, rfl, ?_, fun path foreign => ?_⟩
    · rw [Disk.update_other _ _ apart, Disk.update_same]
      cases answer.emptyLog with
      | false => exact Or.inl rfl
      | true => exact Or.inr rfl
    · rw [Disk.update_other _ _ fun same => foreign (Or.inr same)]
      exact Disk.update_other _ _ fun same => foreign (Or.inl same)
  · rw [if_neg present]
    exact Or.inl rfl

theorem opened_other {world : World} {answer : Answer} {database path : Path}
    (foreign : ¬ ReadFiles database path) :
    (world.opened answer database).disk path = world.disk path := by
  rcases opened_cases world answer database with same | ⟨_, disk, reached, _, others⟩
  · rw [same]
  · rw [reached]
    exact others path foreign

theorem opened_within {own : Path → Prop} {database : Path} (world : World) (answer : Answer)
    (mine : ∀ file, ReadFiles database file → own file) :
    Within own world (world.opened answer database) := by
  rcases opened_cases world answer database with same | ⟨_, disk, reached, _, others⟩
  · rw [same]
    exact Within.refl world
  · rw [reached]
    exact Within.disk fun path foreign =>
      Or.inl (others path fun member => foreign (mine path member))

theorem Aside.endures {own : Path → Prop} {kept : List Answer → World → Prop} {database : Path}
    (aside : Aside own kept) (mine : ∀ file, ReadFiles database file → own file) :
    Endures database kept :=
  fun answer rest world holds => aside.change rest world _ holds (opened_within world answer mine)

theorem Endures.both {database : Path} {first second : List Answer → World → Prop}
    (left : Endures database first) (right : Endures database second) :
    Endures database (fun rest world => first rest world ∧ second rest world) :=
  fun answer rest world holds =>
    ⟨left answer rest world holds.1, right answer rest world holds.2⟩

namespace Confined

variable {α β : Type} {own own' : Path → Prop} {program : Work α}

theorem pure {result : α} : Confined own (pure result : Work α) :=
  fun _ _ => Keeps.pure

theorem fail {failure : MaintenanceFailure} : Confined own (fail failure : Work α) :=
  fun _ _ => Keeps.fail

theorem ofExcept {result : Except MaintenanceFailure α} :
    Confined own (ofExcept result : Work α) :=
  fun _ _ => Keeps.ofExcept

theorem bind {next : α → Work β} (first : Confined own program)
    (second : ∀ result, Confined own (next result)) : Confined own (program >>= next) :=
  fun kept aside => Keeps.bind (first kept aside) (fun result => second result kept aside)

theorem attempt (confined : Confined own program) : Confined own (attempt program) :=
  fun kept aside => Keeps.attempt (confined kept aside)

theorem ask {act : Answer → World → α × World}
    (within : ∀ answer world, Within own world (act answer world).2) :
    Confined own (ask act) := by
  intro kept aside
  apply Keeps.call
  intro answer rest world holds
  exact aside.change rest _ _ (aside.turn answer rest world holds)
    (within answer (world.meanwhile answer))

theorem io {act : Disk Path Bytes → Except IoError α × Disk Path Bytes}
    (outside : ∀ disk path, ¬ own path →
      (act disk).2 path = disk path ∨ (act disk).2 path = (disk path).settle) :
    Confined own (io act) := by
  apply Confined.ask
  intro answer world
  cases answer.refusal with
  | some message => exact Within.refl world
  | none => exact Within.disk (outside world.disk)

theorem orFail {program : Work (Except IoError α)} {failure : IoError → MaintenanceFailure}
    (confined : Confined own program) : Confined own (orFail program failure) := by
  apply confined.bind
  intro result
  cases result with
  | ok value => exact Confined.pure
  | error error => exact Confined.fail

theorem require {condition : Prop} [Decidable condition] {failure : MaintenanceFailure} :
    Confined own (require condition failure) := by
  unfold Maintenance.require
  split
  · exact Confined.pure
  · exact Confined.fail

theorem forEach {action : α → Work Unit} {elements : List α}
    (each : ∀ element ∈ elements, Confined own (action element)) :
    Confined own (forEach action elements) := by
  induction elements with
  | nil => exact Confined.pure
  | cons element rest inductionHypothesis =>
    apply (each element List.mem_cons_self).bind
    intro _
    apply inductionHypothesis
    intro other listed
    exact each other (List.mem_cons_of_mem element listed)

/-- A program that changes nothing. -/
theorem looking {act : Disk Path Bytes → Except IoError α × Disk Path Bytes}
    (unchanged : ∀ disk, (act disk).2 = disk) : Confined own (Maintenance.io act) :=
  Confined.io fun disk path _ => Or.inl (congrFun (unchanged disk) path)

theorem update_aside {disk : Disk Path Bytes} {path other : Path}
    {change : Entry Bytes → Entry Bytes} (mine : own path) (foreign : ¬ own other) :
    disk.update path change other = disk other := by
  apply Disk.update_other
  rintro rfl
  exact foreign mine

/-- A program that changes at most one entry. -/
theorem writing {act : Disk Path Bytes → Except IoError α × Disk Path Bytes} {path : Path}
    (mine : own path)
    (writes : ∀ disk, (∃ result, act disk = (result, disk)) ∨
      ∃ result change, act disk = (result, disk.update path change)) :
    Confined own (Maintenance.io act) := by
  apply Confined.io
  intro disk other foreign
  left
  rcases writes disk with ⟨result, unchanged⟩ | ⟨result, change, written⟩
  · rw [unchanged]
  · rw [written]
    exact update_aside mine foreign

end Confined

namespace Reader

variable {α β : Type} {source : Path} {own : Path → Prop} {program : Work α}

theorem of_confined (confined : Confined own program) : Reader source own program :=
  fun kept aside _ => confined kept aside

theorem confined (reader : Reader source own program)
    (mine : ∀ file, ReadFiles source file → own file) : Confined own program :=
  fun kept aside => reader kept aside (aside.endures mine)

theorem bind {next : α → Work β} (first : Reader source own program)
    (second : ∀ result, Reader source own (next result)) : Reader source own (program >>= next) :=
  fun kept aside endures =>
    Keeps.bind (first kept aside endures) (fun result => second result kept aside endures)

theorem attempt (reader : Reader source own program) : Reader source own (attempt program) :=
  fun kept aside endures => Keeps.attempt (reader kept aside endures)

theorem reading {act : Disk Path Bytes → Except IoError α} :
    Reader source own (Maintenance.reading source act) := by
  intro kept aside endures
  apply Keeps.call
  intro answer rest world holds
  have opened := endures answer rest _ (aside.turn answer rest world holds)
  dsimp only
  cases answer.refusal with
  | some message => exact opened
  | none => exact opened

theorem orFail {program : Work (Except IoError α)} {failure : IoError → MaintenanceFailure}
    (reader : Reader source own program) : Reader source own (orFail program failure) := by
  apply reader.bind
  intro result
  cases result with
  | ok value => exact of_confined Confined.pure
  | error error => exact of_confined Confined.fail

end Reader

/-! ## Calls -/

section Calls

variable {own : Path → Prop} {path : Path}

theorem permitted_confined (failure : String → MaintenanceFailure) :
    Confined own (permitted failure) :=
  Confined.orFail (Confined.looking fun _ => rfl)

theorem metadata_confined : Confined own (metadata path) := by
  apply Confined.looking
  intro disk
  split
  · rfl
  · rfl

theorem pathExists_confined : Confined own (pathExists path) := by
  apply Confined.bind metadata_confined
  intro result
  cases result with
  | ok length => exact Confined.pure
  | error error => exact Confined.pure

theorem canonicalize_confined : Confined own (canonicalize path) := by
  apply Confined.looking
  intro disk
  split
  · rfl
  · rfl

theorem createNew_confined (mine : own path) : Confined own (createNew path) := by
  apply Confined.writing mine
  intro disk
  split
  · exact Or.inl ⟨_, rfl⟩
  · exact Or.inr ⟨_, _, rfl⟩

theorem openCreate_confined (mine : own path) : Confined own (openCreate path) := by
  apply Confined.writing mine
  intro disk
  split
  · exact Or.inl ⟨_, rfl⟩
  · exact Or.inr ⟨_, _, rfl⟩

theorem removeFile_confined (mine : own path) : Confined own (removeFile path) := by
  apply Confined.writing mine
  intro disk
  split
  · exact Or.inr ⟨_, _, rfl⟩
  · exact Or.inl ⟨_, rfl⟩

theorem syncAll_confined (mine : own path) : Confined own (syncAll path) := by
  apply Confined.writing mine
  intro disk
  split
  · exact Or.inr ⟨_, _, rfl⟩
  · exact Or.inl ⟨_, rfl⟩

theorem syncDirectory_confined : Confined own (syncDirectory path) := by
  apply Confined.io
  intro disk other _
  rcases Disk.settleWhere_apply disk (fun file => file.parent == path.parent) other with
    settled | unchanged
  · exact Or.inr settled
  · exact Or.inl unchanged

theorem placeBundle_aside {disk : Disk Path Bytes} {bundle : Bundle} {other : Path}
    (foreign : ¬ InBundle path other) : placeBundle disk path bundle other = disk other := by
  unfold placeBundle
  have apart : ∀ suffix ∈ sidecarSuffixes, other ≠ sqliteSidecar path suffix := by
    rintro suffix listed rfl
    exact foreign (InBundle.sidecar path _ listed)
  rw [Disk.update_other _ _ (apart "-journal" (by simp [sidecarSuffixes])),
    Disk.update_other _ _ (apart "-shm" (by simp [sidecarSuffixes])),
    Disk.update_other _ _ (apart "-wal" (by simp [sidecarSuffixes])),
    Disk.update_other]
  rintro rfl
  exact foreign (InBundle.main other)

theorem placeBundle_within {world : World} {bundle : Bundle}
    (mine : ∀ file, InBundle path file → own file) :
    Within own world { world with disk := placeBundle world.disk path bundle } :=
  Within.disk fun other foreign =>
    Or.inl (placeBundle_aside fun member => foreign (mine other member))

theorem abandon_within {world : World} {left : Option Bundle}
    (mine : ∀ file, InBundle path file → own file) :
    Within own world (world.abandon path left) := by
  cases left with
  | some bundle => exact placeBundle_within mine
  | none => exact Within.refl world

theorem temporaryPath_confined (base : Path) (label : String) :
    Confined own (temporaryPath base label) := by
  intro kept aside script world holds
  exact aside.change script world _ holds
    { sequence := Nat.le_succ world.sequence
      processId := rfl
      outside := fun _ _ => Or.inl rfl }

end Calls

/-! ## Operations -/

section Operations

variable {own : Path → Prop} {path : Path}

theorem removeIfExists_confined (mine : own path) : Confined own (removeIfExists path) :=
  Confined.bind (removeFile_confined mine) fun _ => Confined.pure

theorem createSecureEmptyFile_confined (mine : own path) :
    Confined own (createSecureEmptyFile path) :=
  Confined.orFail (createNew_confined mine)

theorem syncFile_confined (mine : own path) : Confined own (syncFile path) :=
  Confined.orFail (syncAll_confined mine)

theorem syncParent_confined : Confined own (syncParent path) :=
  Confined.orFail syncDirectory_confined

theorem resolveSecond_confined (second : Path) (present : Bool) :
    Confined own (resolveSecond second present) := by
  cases present with
  | true => exact Confined.orFail canonicalize_confined
  | false => exact Confined.orFail (Confined.looking fun _ => rfl)

theorem ensureDistinctPaths_confined (first second : Path) :
    Confined own (ensureDistinctPaths first second) := by
  apply Confined.bind (Confined.orFail canonicalize_confined)
  intro _
  apply Confined.bind pathExists_confined
  intro present
  apply Confined.bind (resolveSecond_confined second present)
  intro _
  exact Confined.require

theorem ensureNewDestination_confined (destination : Path) :
    Confined own (ensureNewDestination destination) := by
  apply Confined.bind metadata_confined
  intro result
  split
  · exact Confined.fail
  · exact Confined.pure
  · exact Confined.fail

theorem openLockFile_confined (mine : own (lockPath path)) : Confined own (openLockFile path) := by
  apply Confined.bind (permitted_confined _)
  intro _
  apply Confined.bind (Confined.orFail (openCreate_confined mine))
  intro _
  exact permitted_confined _

theorem leaseShared_confined (mine : own (lockPath path)) : Confined own (leaseShared path) :=
  Confined.bind (openLockFile_confined mine) fun _ => permitted_confined _

theorem openReadOnly_reader (context : String) : Reader path own (openReadOnly path context) :=
  Reader.orFail Reader.reading

theorem openReadOnly_confined (beside : ∀ file, ReadFiles path file → own file)
    (context : String) : Confined own (openReadOnly path context) :=
  (openReadOnly_reader context).confined beside

theorem openReadWrite_confined (mine : own path) (context : String) :
    Confined own (openReadWrite path context) :=
  Confined.orFail (openCreate_confined mine)

variable [Sqlite]

theorem query_confined {α : Type} (beside : ∀ file, ReadFiles path file → own file)
    (compute : Sqlite.Content → Except String α) (failure : String → MaintenanceFailure) :
    Confined own (query path compute failure) :=
  (Reader.orFail Reader.reading).confined beside

/-- What one step of a copy can do: write the copied content, or leave
something unfinished. -/
theorem copyTurn_cases (source destination : Path) (started : Nat) (policy : CopyPolicy)
    (steps : Nat) (answer : Answer) (before opened : World)
    (reached : (before.meanwhile answer).opened answer source = opened) :
    (∃ content, readDatabase opened.disk source = .ok content ∧
      copyTurn source destination started policy steps answer before =
        (.stop (.ok ()), { opened with
          disk := placeBundle opened.disk destination (.single (Sqlite.image content)) })) ∨
    ((copyTurn source destination started policy steps answer before).2 =
        opened.abandon destination answer.left ∧
      (copyTurn source destination started policy steps answer before).1 ≠ .stop (.ok ())) := by
  unfold copyTurn
  rw [reached]
  cases answer.refusal with
  | some message => exact Or.inr ⟨rfl, by simp⟩
  | none =>
    rcases found : readDatabase opened.disk source with message | content
    · exact Or.inr ⟨by simp only [found], by simp only [found]; simp⟩
    · simp only [found]
      split
      · exact Or.inr ⟨rfl, by simp⟩
      · split
        · exact Or.inr ⟨rfl, by simp⟩
        · split
          · exact Or.inl ⟨content, rfl, rfl⟩
          · exact Or.inr ⟨rfl, by simp⟩
          · right
            split
            · exact ⟨rfl, by simp⟩
            · exact ⟨rfl, by simp⟩
          · right
            split
            · exact ⟨rfl, by simp⟩
            · exact ⟨rfl, by simp⟩
          · exact Or.inr ⟨rfl, by simp⟩

theorem copyTurn_within {source : Path} {started : Nat} {policy : CopyPolicy} {steps : Nat}
    {answer : Answer} {before : World} (mine : ∀ file, InBundle path file → own file) :
    Within own ((before.meanwhile answer).opened answer source)
      (copyTurn source path started policy steps answer before).2 := by
  rcases copyTurn_cases source path started policy steps answer before _ rfl with
    ⟨content, _, taken⟩ | ⟨reached, _⟩
  · rw [taken]
    exact placeBundle_within mine
  · rw [reached]
    exact abandon_within mine

/-- One step of a copy keeps what endures the reading of its source. -/
theorem copyTurn_keeps {source : Path} {started : Nat} {policy : CopyPolicy} {steps : Nat}
    {answer : Answer} {rest : List Answer} {world : World} {kept : List Answer → World → Prop}
    (aside : Aside own kept) (endures : Endures source kept)
    (mine : ∀ file, InBundle path file → own file) (holds : kept (answer :: rest) world) :
    kept rest (copyTurn source path started policy steps answer world).2 :=
  aside.change rest _ _ (endures answer rest _ (aside.turn answer rest world holds))
    (copyTurn_within mine)

variable (beside : ∀ file, ReadFiles path file → own file)

include beside

theorem countRows_confined (table : String) : Confined own (countRows path table) := by
  apply Confined.bind (query_confined beside _ _)
  intro count
  apply Confined.bind Confined.require
  intro _
  exact Confined.pure

theorem validateIntegrity_confined : Confined own (validateIntegrity path) := by
  apply Confined.bind (permitted_confined _)
  intro _
  apply Confined.bind (permitted_confined _)
  intro _
  apply Confined.bind (query_confined beside _ _)
  intro _
  exact Confined.require

theorem inspectPath_confined (dimensions : Nat) (expected : Option EmbeddingProfile) :
    Confined own (inspectPath path dimensions expected) := by
  apply Confined.bind (permitted_confined _)
  intro _
  apply Confined.bind (openReadOnly_confined beside _)
  intro _
  apply Confined.bind (permitted_confined _)
  intro _
  apply Confined.bind (permitted_confined _)
  intro _
  apply Confined.bind (validateIntegrity_confined beside)
  intro _
  apply Confined.bind (query_confined beside _ _)
  intro _
  apply Confined.bind (query_confined beside _ _)
  intro profile
  apply Confined.bind Confined.ofExcept
  intro _
  apply Confined.bind (countRows_confined beside _)
  intro _
  apply Confined.bind (countRows_confined beside _)
  intro _
  apply Confined.bind Confined.require
  intro _
  apply Confined.bind (Confined.orFail metadata_confined)
  intro _
  exact Confined.pure

theorem inspectPathUsingStoredDimensions_confined :
    Confined own (inspectPathUsingStoredDimensions path) := by
  apply Confined.bind (permitted_confined _)
  intro _
  apply Confined.bind (openReadOnly_confined beside _)
  intro _
  apply Confined.bind (query_confined beside _ _)
  intro stored
  cases stored with
  | some dimensions => exact inspectPath_confined beside dimensions none
  | none => exact Confined.fail

end Operations

end LocalHold.Maintenance
