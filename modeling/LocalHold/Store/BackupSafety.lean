import LocalHold.Store.MaintenanceReads

/-!
# A backup is published whole and overwrites nothing

Other processes may put files at the destination and into the source while a
backup runs.  Beside what they do, the backup changes the destination only once:
where nothing is, it puts the finished snapshot, which is on the medium already.
So at every moment, and after every power loss, the destination is what the
others made it or a complete copy of what SQLite read in the source at some
moment of the run.
-/

namespace LocalHold.Maintenance

open Durable Transition.Interrupts Transition.Interrupts.Interruptible

/-! ## Entries beside the others -/

/-- What others alone would have made of an entry. -/
def othersAlone (path : Path) (script : List Answer) (entry : Entry Bytes) : Entry Bytes :=
  script.foldl (fun entry answer => answer.meddle path entry) entry

theorem othersAlone_snoc (path : Path) (script : List Answer) (answer : Answer)
    (entry : Entry Bytes) :
    othersAlone path (script ++ [answer]) entry =
      answer.meddle path (othersAlone path script entry) := by
  unfold othersAlone
  rw [List.foldl_append]
  rfl

/-- What others alone would have made of the disk. -/
def othersDisk (script : List Answer) (disk : Disk Path Bytes) : Disk Path Bytes :=
  fun path => othersAlone path script (disk path)

theorem meddle_notClobbered {whole : File Bytes → Prop} {others entry : Entry Bytes}
    (safe : NotClobbered whole others entry) (path : Path) (answer : Answer) :
    NotClobbered whole (answer.meddle path others) (answer.meddle path entry) := by
  unfold Answer.meddle
  generalize answer.meanwhile = changes
  induction changes generalizing others entry with
  | nil => exact safe
  | cons change changes inductionHypothesis =>
    apply inductionHypothesis
    unfold othersPut
    split
    · exact safe.become _
    · exact safe

/-- An entry beside the others, from the start of a script on.  What counts as a
whole file may depend on the answers that were used. -/
def Beside (whole : List Answer → File Bytes → Prop) (path : Path) (script : List Answer)
    (start : Entry Bytes) (rest : List Answer) (world : World) : Prop :=
  ∃ used, script = used ++ rest ∧
    NotClobbered (whole used) (othersAlone path used start) (world.disk path)

/-- What is whole once stays whole. -/
def StaysWhole (whole : List Answer → File Bytes → Prop) : Prop :=
  ∀ used answer file, whole used file → whole (used ++ [answer]) file

section Destination

variable {whole : List Answer → File Bytes → Prop} {path : Path} {script : List Answer}
  {start : Entry Bytes}

theorem Beside.turn (stays : StaysWhole whole) :
    Patient (Beside whole path script start) := by
  rintro answer rest world ⟨used, split, safe⟩
  refine ⟨used ++ [answer], by rw [split, List.append_assoc]; rfl, ?_⟩
  rw [othersAlone_snoc]
  exact (meddle_notClobbered safe path answer).mono (stays used answer)

theorem Beside.aside {own : Path → Prop} (stays : StaysWhole whole) (foreign : ¬ own path) :
    Aside own (Beside whole path script start) where
  turn := Beside.turn stays
  change := by
    rintro rest world reached ⟨used, split, safe⟩ within
    refine ⟨used, split, ?_⟩
    rcases within.outside path foreign with same | settled
    · rw [same]
      exact safe
    · rw [settled]
      exact safe.settle

/-! ## Publication -/

theorem publishNoClobber_beside {temporary destination : Path} {bytes : Bytes}
    (stays : StaysWhole whole) (different : temporary ≠ destination) :
    Ensures
      (fun rest world => (Beside whole destination script start rest world ∧
          ∃ used, script = used ++ rest ∧ whole used ⟨bytes, true⟩) ∧
        Holding temporary (Has bytes true) rest world)
      (publishNoClobber temporary destination)
      (fun _ => Beside whole destination script start)
      (fun _ => Beside whole destination script start)
      (Beside whole destination script start) := by
  have aside : Aside (fun file => file = temporary) (Beside whole destination script start) :=
    Beside.aside stays fun same => different same.symm
  have patient : Patient (fun rest world => Beside whole destination script start rest world ∧
      ∃ used, script = used ++ rest ∧ whole used ⟨bytes, true⟩) := by
    apply Patient.both (Beside.turn stays)
    rintro answer rest _ ⟨used, split, complete⟩
    exact ⟨used ++ [answer], by rw [split, List.append_assoc]; rfl,
      stays used answer _ complete⟩
  have linked : ∀ failure, Ensures
      (fun rest world => (Beside whole destination script start rest world ∧
          ∃ used, script = used ++ rest ∧ whole used ⟨bytes, true⟩) ∧
        Holding temporary (Has bytes true) rest world)
      (orFail (hardLink temporary destination) failure)
      (fun _ => Beside whole destination script start)
      (fun _ => Beside whole destination script start)
      (Beside whole destination script start) := by
    intro failure
    apply (orFail_ensures _ failure (Patient.both patient Holding.turn)).mono (fun _ _ => id) _ _
      (fun _ _ holds => holds.1.1)
    · rintro value rest world
        ⟨before, ⟨⟨⟨used, split, safe⟩, used', split', complete⟩, _, has⟩, succeeded, reached⟩
      have same : used' = used := List.append_cancel_right (split'.symm.trans split)
      subst same
      unfold Has at has
      rw [has] at succeeded reached
      dsimp only at reached succeeded
      split at succeeded
      · cases succeeded
      · rename_i absent
        rw [if_neg absent] at reached
        refine ⟨used', split, ?_⟩
        rw [reached]
        dsimp only
        rw [Disk.update_same]
        apply safe.publish complete
        unfold isPresent at absent
        rw [Bool.not_eq_true, Option.isSome_eq_false_iff, Option.isNone_iff_eq_none] at absent
        exact absent
    · rintro failure rest world
        ⟨before, ⟨⟨beside, _⟩, _, has⟩, error, ⟨_, same⟩ | ⟨failed, reached⟩⟩
      · rw [same]
        exact beside
      · unfold Has at has
        dsimp only at failed reached
        rw [has] at failed reached
        dsimp only at reached failed
        split at failed
        · rename_i there
          rw [if_pos there] at reached
          rw [reached]
          exact beside
        · cases failed
  apply Ensures.bind (linked _)
  intro _
  apply Ensures.bind (syncParent_confined _ aside)
  intro _
  have cleanup : Confined (fun file => file = temporary) (removeIfExists temporary) :=
    removeIfExists_confined rfl
  exact cleanup _ aside

end Destination

/-! ## The source -/

/-- The source is what others made it, but for what reads leave. -/
def Mirrors (source : Path) (script : List Answer) (start : Disk Path Bytes) (rest : List Answer)
    (world : World) : Prop :=
  ∀ path, Lasting source path →
    Beside (fun _ => EmptyLog source path) path script (start path) rest world

namespace Mirrors

variable {source : Path} {script rest : List Answer} {start : Disk Path Bytes} {world : World}

theorem start_of (source : Path) (script : List Answer) (world : World) :
    Mirrors source script world.disk script world :=
  fun _ _ => ⟨[], rfl, NotClobbered.refl _⟩

theorem aside {own : Path → Prop} (foreign : ∀ path, InBundle source path → ¬ own path) :
    Aside own (Mirrors source script start) :=
  Aside.all fun path lasting =>
    Beside.aside (fun _ _ _ => id) (foreign path lasting.1)

theorem endures : Endures source (Mirrors source script start) := by
  intro answer rest world holds path lasting
  rcases holds path lasting with ⟨used, split, safe⟩
  exact ⟨used, split, opened_notClobbered lasting (fun log _ => ⟨log, rfl⟩) safe⟩

/-- The source reads as it does for the others. -/
theorem read_eq [Sqlite] (mirrors : Mirrors source script start rest world) :
    ∃ used, script = used ++ rest ∧
      readDatabase world.disk source = readDatabase (othersDisk used start) source := by
  rcases mirrors source (Lasting.main source) with ⟨used, split, _⟩
  refine ⟨used, split, ?_⟩
  apply ReadSince.read_eq
  intro path lasting
  rcases mirrors path lasting with ⟨used', split', safe⟩
  rw [List.append_cancel_right (split.symm.trans split')]
  exact safe

end Mirrors

/-! ## Runs -/

section Runs

variable [Sqlite] {kept : List Answer → World → Prop}

/-- A complete copy of what SQLite reads in a database, on the medium. -/
def CopyOf (past : Disk Path Bytes) (database : Path) (file : File Bytes) : Prop :=
  ∃ content, readDatabase past database = .ok content ∧ file = ⟨Sqlite.image content, true⟩

/-- A complete copy of what SQLite read in a database at some moment up to now, as
others had made it then. -/
def CopyOfMoment (start : Disk Path Bytes) (database : Path) (used : List Answer)
    (file : File Bytes) : Prop :=
  ∃ earlier, earlier <+: used ∧ CopyOf (othersDisk earlier start) database file

theorem CopyOfMoment.staysWhole (start : Disk Path Bytes) (database : Path) :
    StaysWhole (CopyOfMoment start database) := by
  rintro used answer file ⟨earlier, before, copy⟩
  exact ⟨earlier, before.trans (List.prefix_append used [answer]), copy⟩

/-- SQLite has read this content in the source. -/
def HasRead (source : Path) (script : List Answer) (start : Disk Path Bytes)
    (content : Sqlite.Content) (rest : List Answer) (_ : World) : Prop :=
  ∃ used, script = used ++ rest ∧
    CopyOfMoment start source used ⟨Sqlite.image content, true⟩

theorem HasRead.aside {own : Path → Prop} {source : Path} {script : List Answer}
    {start : Disk Path Bytes} (content : Sqlite.Content) :
    Aside own (HasRead source script start content) where
  turn := by
    rintro answer rest world ⟨used, split, copy⟩
    exact ⟨used ++ [answer], by rw [split, List.append_assoc]; rfl,
      CopyOfMoment.staysWhole start source used answer _ copy⟩
  change _ _ _ read _ := read

/-- A finished private snapshot, validated: what its publication can rely on. -/
theorem stagedBackup_ensures {source temporary : Path} {script : List Answer}
    {start : Disk Path Bytes} {policy : CopyPolicy} (aside : Aside (InBundle temporary) kept)
    (endures : Endures source kept)
    (mirrors : ∀ rest world, kept rest world → Mirrors source script start rest world)
    (calm : ∀ rest world, kept rest world → Calm (InBundle temporary) rest)
    {last : MaintenanceReport → List Answer → World → Prop}
    {failing : MaintenanceFailure → List Answer → World → Prop} {cut : List Answer → World → Prop}
    (fails : ∀ failure rest world, kept rest world → failing failure rest world)
    (cuts : ∀ rest world, kept rest world → cut rest world)
    {next : Inspection → Work MaintenanceReport}
    (publishes : ∀ content inspection, Ensures
        (fun rest world => (kept rest world ∧ HasRead source script start content rest world) ∧
          Holding temporary (Has (Sqlite.image content) true) rest world)
        (next inspection) last failing cut) :
    Ensures kept
      (do
        snapshotPath source temporary policy
        let inspection ← inspectPathUsingStoredDimensions temporary
        next inspection)
      last failing cut := by
  have reads : ∀ rest world content, kept rest world →
      readDatabase world.disk source = .ok content →
      HasRead source script start content rest world := by
    intro rest world content holds read
    rcases (mirrors rest world holds).read_eq with ⟨used, split, same⟩
    refine ⟨used, split, used, List.prefix_rfl, content, ?_, rfl⟩
    rw [← same]
    exact read
  apply Ensures.bind ((snapshotPath_ensures aside endures HasRead.aside calm reads).mono
    (fun _ _ => id) (fun _ _ _ => id) fails cuts)
  intro _
  apply Ensures.choose
  rintro script' world ⟨holds, content, read, quiet, stored⟩
  refine ⟨fun rest world => (kept rest world ∧ HasRead source script start content rest world) ∧
    Holding temporary (Has (Sqlite.image content) true) rest world,
    ⟨⟨holds, read⟩, quiet.mono fun _ same => same ▸ InBundle.main _, stored.main⟩, ?_⟩
  have staged : Aside (ReadFiles temporary) (fun rest world =>
      (kept rest world ∧ HasRead source script start content rest world) ∧
      Holding temporary (Has (Sqlite.image content) true) rest world) := by
    apply ((aside.mono fun _ => ReadFiles.inBundle).both (HasRead.aside content)).both
    apply Holding.aside _ fun _ has => has
    rintro (same | same)
    · exact sqliteSidecar_ne temporary (by simp [sidecarSuffixes]) same.symm
    · exact sqliteSidecar_ne temporary (by simp [sidecarSuffixes]) same.symm
  apply Ensures.bind ((inspectPathUsingStoredDimensions_confined (fun _ => id) _ staged).mono
    (fun _ _ => id) (fun _ _ _ => id)
    (fun failure rest world holds => fails failure rest world holds.1.1)
    (fun rest world holds => cuts rest world holds.1.1))
  intro inspection
  exact publishes content inspection

/-- The names that a backup uses beside its destination. -/
def BackupPrivate (options : BackupOptions) (file : Path) : Prop :=
  Private options.databasePath ".localhold" file ∨ Private options.destination ".localhold" file

/-- The private names of a backup are left alone by others, and do not fall
together with other names. -/
structure PrivateNames (options : BackupOptions) (script : List Answer) : Prop where
  names : Calm (Private options.destination ".localhold") script
  foreign : ∀ file, InBundle options.databasePath file →
    ¬ Private options.destination ".localhold" file
  destination : ¬ Private options.databasePath ".localhold" options.destination

/-- A backup whose source others leave alone, too. -/
structure Undisturbed (options : BackupOptions) (script : List Answer) : Prop
    extends PrivateNames options script where
  source : Calm (InBundle options.databasePath) script

/-- The parts of a backup before its snapshot only touch private names. -/
theorem backupSync_ensures {options : BackupOptions} {policy : CopyPolicy} {script : List Answer}
    {start : Disk Path Bytes}
    {after : MaintenanceReport → List Answer → World → Prop}
    {failing : MaintenanceFailure → List Answer → World → Prop} {cut : List Answer → World → Prop}
    (aside : Aside (BackupPrivate options) kept) (endures : Endures options.databasePath kept)
    (mirrors : ∀ rest world, kept rest world →
      Mirrors options.databasePath script start rest world)
    (calm : ∀ rest world, kept rest world →
      Calm (Private options.destination ".localhold") rest)
    (fails : ∀ failure rest world, kept rest world → failing failure rest world)
    (cuts : ∀ rest world, kept rest world → cut rest world)
    (afterAside : ∀ report, Aside (Private options.destination ".localhold") (after report))
    (failingAside : ∀ failure, Aside (Private options.destination ".localhold") (failing failure))
    (afterCut : ∀ report rest world, after report rest world → cut rest world)
    (failingCut : ∀ failure rest world, failing failure rest world → cut rest world)
    (publishes : ∀ tail content inspection, Ensures
        (fun rest world =>
          (kept rest world ∧ HasRead options.databasePath script start content rest world) ∧
          Holding (options.destination.push (".localhold" ++ tail))
            (Has (Sqlite.image content) true) rest world)
        (do
          publishNoClobber (options.destination.push (".localhold" ++ tail)) options.destination
          pure (successReport
            { operation := "backup"
              source := options.databasePath
              destination := options.destination
              dryRun := false
              databaseReplaced := false
              recoveryPath := none
              message := "consistent online backup created and validated" }
            inspection))
        after failing cut) :
    Ensures kept (backupSync options policy) after failing cut := by
  have goesOn : ∀ {α : Type} {program : Work α}, Confined (BackupPrivate options) program →
      Ensures kept program (fun _ => kept) failing cut :=
    fun confined => (confined kept aside).mono (fun _ _ => id) (fun _ _ _ => id) fails cuts
  apply Ensures.bind (goesOn (ensureDistinctPaths_confined _ _))
  intro _
  apply Ensures.bind (goesOn (ensureNewDestination_confined _))
  intro _
  apply Ensures.bind (goesOn (leaseShared_confined (Or.inl (lockPath_private _))))
  intro _
  apply Ensures.bind ((temporaryPath_ensures aside options.destination "backup").mono
    (fun _ _ => id) (fun _ _ _ => id) fails cuts)
  intro temporary
  apply Ensures.choose
  rintro script' world ⟨holds, tail, rfl⟩
  refine ⟨kept, holds, ?_⟩
  have inside : ∀ file, InBundle (options.destination.push (".localhold" ++ tail)) file →
      Private options.destination ".localhold" file := fun _ member => member.inside
  apply Ensures.afterwards
  · exact stagedBackup_ensures (aside.mono fun file member => Or.inr (inside file member)) endures
      mirrors (fun rest world holds => (calm rest world holds).mono inside) fails cuts
      (publishes tail)
  · intro report
    exact (removeIfExists_ensures (afterAside report) ⟨tail, rfl⟩).mono (fun _ _ => id)
      (fun _ _ _ => id) (fun _ _ _ => id) (afterCut report)
  · intro failure
    exact (removeIfExists_ensures (failingAside failure) ⟨tail, rfl⟩).mono (fun _ _ => id)
      (fun _ _ _ => id) (fun _ _ _ => id) (failingCut failure)

omit [Sqlite] in
theorem source_aside {options : BackupOptions} {script : List Answer} {start : Disk Path Bytes}
    (names : PrivateNames options script) :
    Aside (BackupPrivate options) (Mirrors options.databasePath script start) := by
  apply Mirrors.aside
  rintro file member (lock | hidden)
  · exact member.apart dotted_localhold lock
  · exact names.foreign file member hidden

omit [Sqlite] in
theorem destination_foreign {options : BackupOptions} {script : List Answer}
    (names : PrivateNames options script) : ¬ BackupPrivate options options.destination := by
  rintro (lock | hidden)
  · exact names.destination lock
  · exact (InBundle.main options.destination).apart dotted_localhold hidden

omit [Sqlite] in
theorem temporary_ne (destination : Path) (tail : String) :
    destination.push (".localhold" ++ tail) ≠ destination := by
  intro same
  exact (InBundle.main destination).apart dotted_localhold ⟨tail, same.symm⟩

theorem backup_beside (options : BackupOptions) (script : List Answer) (world : World)
    (names : PrivateNames options script)
    (apart : ¬ ReadFiles options.databasePath options.destination) :
    Ensures
      (fun rest reached => Beside (CopyOfMoment world.disk options.databasePath)
          options.destination script (world.disk options.destination) rest reached ∧
        Mirrors options.databasePath script world.disk rest reached ∧
        Calm (Private options.destination ".localhold") rest)
      (backup options)
      (fun _ => Beside (CopyOfMoment world.disk options.databasePath) options.destination script
        (world.disk options.destination))
      (fun _ _ _ => False)
      (Beside (CopyOfMoment world.disk options.databasePath) options.destination script
        (world.disk options.destination)) := by
  have stays := CopyOfMoment.staysWhole world.disk options.databasePath
  have beside : ∀ {own : Path → Prop}, ¬ own options.destination → Aside own
      (Beside (CopyOfMoment world.disk options.databasePath) options.destination script
        (world.disk options.destination)) :=
    fun foreign => Beside.aside stays foreign
  have hidden : ¬ Private options.destination ".localhold" options.destination :=
    (InBundle.main options.destination).apart dotted_localhold
  apply reported_ensures
  · apply backupSync_ensures
      ((beside (destination_foreign names)).both
        ((source_aside names).both (Calm.aside (Private options.destination ".localhold"))))
      (((beside apart).endures fun _ => id).both (Mirrors.endures.both fun _ _ _ => id))
      (fun _ _ holds => holds.2.1) (fun _ _ holds => holds.2.2)
      (fun _ _ _ => And.left) (fun _ _ => And.left)
      (fun _ => beside hidden) (fun _ => beside hidden) (fun _ _ _ => id) (fun _ _ _ => id)
    intro tail content inspection
    apply Ensures.bind ((publishNoClobber_beside stays
      (temporary_ne options.destination tail)).weaken fun _ _ holds =>
        ⟨⟨holds.1.1.1, holds.1.2⟩, holds.2⟩)
    intro _
    exact Ensures.pure fun _ _ => id
  · intro _ _ _
    exact id

/-- Wherever a backup ends: beside what others did to its destination, it has
put a complete copy of what SQLite read in the source where nothing was, or done
nothing there.  What a power loss may bring back is theirs or complete, too. -/
theorem backup_publishes_whole (options : BackupOptions) (script : List Answer) (world : World)
    (names : PrivateNames options script)
    (apart : ¬ ReadFiles options.databasePath options.destination) :
    ∃ used, script = used ++ (backup options script world).2.1 ∧
      NotClobbered (CopyOfMoment world.disk options.databasePath used)
        (othersAlone options.destination used (world.disk options.destination))
        ((backup options script world).2.2.disk options.destination) := by
  have ended := backup_beside options script world names apart script world
    ⟨⟨[], rfl, NotClobbered.refl _⟩, Mirrors.start_of _ script world, names.names⟩
  rcases ran : backup options script world with ⟨ending, rest, reached⟩
  rw [ran] at ended
  cases ending with
  | done report => exact ended
  | failed failure => exact ended.elim
  | interrupted => exact ended

/-- A report of success has a copy of the source at the destination. -/
def SuccessHasCopy (past : Disk Path Bytes) (options : BackupOptions) (report : MaintenanceReport)
    (rest : List Answer) (world : World) : Prop :=
  report.exitCode = 0 → ∃ content, readDatabase past options.databasePath = .ok content ∧
    Holding options.destination (fun entry => entry.Certain (some (Sqlite.image content))) rest
      world

theorem SuccessHasCopy.aside {own : Path → Prop} {past : Disk Path Bytes} {options : BackupOptions}
    {report : MaintenanceReport} (foreign : ¬ own options.destination) :
    Aside own (SuccessHasCopy past options report) where
  turn answer rest world holds success := by
    rcases holds success with ⟨content, read, held⟩
    exact ⟨content, read, Holding.turn answer rest world held⟩
  change rest world reached holds within success := by
    rcases holds success with ⟨content, read, held⟩
    have carried : Aside own (Holding options.destination
        (fun entry => entry.Certain (some (Sqlite.image content)))) :=
      Holding.aside foreign fun _ certain => certain.settle
    exact ⟨content, read, carried.change rest world reached held within⟩

end Runs

/-! ## A backup of one database -/

def sampleBackup : BackupOptions where
  databasePath := samplePath "hold.db"
  destination := samplePath "copy.db"

theorem sampleBackup_names {script : List Answer}
    (names : Calm (Private sampleBackup.destination ".localhold") script) :
    PrivateNames sampleBackup script where
  names := names
  foreign := by
    rintro file member ⟨tail, same⟩
    have letters : ∀ suffix : String,
        "hold.db" ++ suffix ≠ "copy.db" ++ (".localhold" ++ tail) := by
      intro suffix equal
      have spelled := congrArg String.toList equal
      simp at spelled
    rcases member with rfl | ⟨suffix, _, rfl⟩
    · exact letters "" (congrArg Path.fileName same)
    · exact letters suffix (congrArg Path.fileName same)
  destination := by
    rintro ⟨tail, same⟩
    have spelled := congrArg String.toList (congrArg Path.fileName same)
    simp [sampleBackup, samplePath, Path.push] at spelled

/-- Another process writes the source and puts a file at the destination. -/
def othersWrite : Answer where
  meanwhile := [(samplePath "hold.db", some [83, 9]), (samplePath "copy.db", some [7])]

/-- Reads leave sidecars, and others write while the snapshot is made. -/
def contendedScript : List Answer :=
  List.replicate 17 leavingSidecars ++ othersWrite :: List.replicate 20 leavingSidecars

theorem contendedScript_names :
    Calm (Private sampleBackup.destination ".localhold") contendedScript := by
  intro answer listed change made hidden
  rcases List.mem_append.mp listed with before | after
  · exact calm_replicate _ 17 rfl answer before change made hidden
  · rcases List.mem_cons.mp after with rfl | later
    · have database : ∀ file, change.1 = file → InBundle sampleBackup.destination file → False :=
        fun file same member => member.apart dotted_localhold (same ▸ hidden)
      rcases List.mem_cons.mp made with rfl | second
      · rcases hidden with ⟨tail, same⟩
        have spelled := congrArg String.toList (congrArg Path.fileName same)
        simp [sampleBackup, samplePath, Path.push] at spelled
      · rw [List.mem_singleton] at second
        exact database _ (congrArg Prod.fst second) (InBundle.main _)
    · exact calm_replicate _ 20 rfl answer later change made hidden

theorem sampleBackup_apart :
    ¬ ReadFiles sampleBackup.databasePath sampleBackup.destination := by
  rintro (same | same)
  · exact absurd same (by decide)
  · exact absurd same (by decide)

/-- Others put their file first. -/
theorem backup_publishes_whole_contended :
    ∃ used, contendedScript =
        used ++ (@backup byteSqlite sampleBackup contendedScript sampleWorld).2.1 ∧
      NotClobbered (@CopyOfMoment byteSqlite sampleWorld.disk (samplePath "hold.db") used)
        (othersAlone (samplePath "copy.db") used (sampleWorld.disk (samplePath "copy.db")))
        ((@backup byteSqlite sampleBackup contendedScript sampleWorld).2.2.disk
          (samplePath "copy.db")) :=
  @backup_publishes_whole byteSqlite sampleBackup contendedScript sampleWorld
    (sampleBackup_names contendedScript_names) sampleBackup_apart

end LocalHold.Maintenance
