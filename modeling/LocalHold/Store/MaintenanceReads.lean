import LocalHold.Store.MaintenanceSteps

/-!
# Databases that are only read

Reading a database may leave an empty log and an index beside it.  The main file
and the rollback journal stay as they were, a log that was there stays, and what
SQLite reads in the files is the same as before, now and after a power loss.
-/

namespace LocalHold.Maintenance

open Durable Transition.Interrupts Transition.Interrupts.Interruptible

/-! ## Files -/

/-- The files of a database, and the files found after it was only read.  The
index may be any. -/
structure Bundle.OnlyRead (was now : Bundle) : Prop where
  main : now.main = was.main
  wal : now.wal = was.wal ∨ was.wal = none ∧ now.wal = some []
  journal : now.journal = was.journal

theorem Bundle.OnlyRead.trans {was between now : Bundle} (first : was.OnlyRead between)
    (second : between.OnlyRead now) : was.OnlyRead now where
  main := second.main.trans first.main
  wal := by
    rcases second.wal with same | ⟨absent, empty⟩
    · rw [same]
      exact first.wal
    · rcases first.wal with same | ⟨_, there⟩
      · exact Or.inr ⟨same.symm.trans absent, empty⟩
      · rw [absent] at there
        cases there
  journal := second.journal.trans first.journal

/-- SQLite reads the same as before. -/
theorem Bundle.OnlyRead.read_eq [Sqlite] {was now : Bundle} (onlyRead : was.OnlyRead now) :
    Sqlite.read now = Sqlite.read was := by
  have indexed : now = { { was with wal := now.wal } with shm := now.shm } := by
    rcases now with ⟨main, wal, shm, journal⟩
    rcases onlyRead with ⟨rfl, _, rfl⟩
    rfl
  rw [indexed, Sqlite.read_index]
  rcases onlyRead.wal with same | ⟨absent, empty⟩
  · rw [same]
  · rw [empty]
    exact Sqlite.read_emptyLog was absent

/-- The files of a database without the index of its log. -/
def Lasting (database path : Path) : Prop :=
  InBundle database path ∧ path ≠ sqliteSidecar database "-shm"

theorem Lasting.main (database : Path) : Lasting database database :=
  ⟨InBundle.main database, (sqliteSidecar_ne database (by simp [sidecarSuffixes])).symm⟩

theorem Lasting.wal (database : Path) : Lasting database (sqliteSidecar database "-wal") :=
  ⟨InBundle.sidecar database "-wal" (by simp [sidecarSuffixes]), by simp [sqliteSidecar]⟩

theorem Lasting.journal (database : Path) : Lasting database (sqliteSidecar database "-journal") :=
  ⟨InBundle.sidecar database "-journal" (by simp [sidecarSuffixes]), by simp [sqliteSidecar]⟩

/-- The file at a path is as before, or an empty log where there was none. -/
def LeftByReads (database path : Path) (was now : Option Bytes) : Prop :=
  now = was ∨ path = sqliteSidecar database "-wal" ∧ was = none ∧ now = some []

theorem LeftByReads.eq_of_ne {database path : Path} {was now : Option Bytes}
    (left : LeftByReads database path was now) (other : path ≠ sqliteSidecar database "-wal") :
    now = was := by
  rcases left with same | ⟨same, _⟩
  · exact same
  · exact absurd same other

/-- Files that are found file by file as reads leave them. -/
theorem onlyRead_of_found {past found : Path → Option Bytes} {database : Path} {was : Bundle}
    (known : bundleFound past database = some was)
    (left : ∀ path, Lasting database path → LeftByReads database path (past path) (found path)) :
    ∃ now, bundleFound found database = some now ∧ was.OnlyRead now := by
  have main : found database = past database :=
    (left database (Lasting.main database)).eq_of_ne
      (sqliteSidecar_ne database (by simp [sidecarSuffixes])).symm
  have journal : found (sqliteSidecar database "-journal") =
      past (sqliteSidecar database "-journal") :=
    (left _ (Lasting.journal database)).eq_of_ne (by simp [sqliteSidecar])
  unfold bundleFound at known ⊢
  rcases Option.map_eq_some_iff.mp known with ⟨bytes, there, rfl⟩
  rw [main, there]
  refine ⟨_, rfl, rfl, ?_, journal⟩
  rcases left _ (Lasting.wal database) with same | ⟨_, absent, empty⟩
  · exact Or.inl same
  · exact Or.inr ⟨absent, empty⟩

/-- The log that a read creates. -/
def EmptyLog (database path : Path) (file : File Bytes) : Prop :=
  path = sqliteSidecar database "-wal" ∧ file = ⟨[], true⟩

/-- A read fills the place of a missing log and touches no other lasting file. -/
theorem opened_notClobbered {whole : File Bytes → Prop} {others : Entry Bytes} {world : World}
    {answer : Answer} {database path : Path} (lasting : Lasting database path)
    (fills : path = sqliteSidecar database "-wal" → others.now = none → whole ⟨[], true⟩)
    (safe : NotClobbered whole others (world.disk path)) :
    NotClobbered whole others ((world.opened answer database).disk path) := by
  by_cases log : path = sqliteSidecar database "-wal"
  · subst log
    rcases opened_cases world answer database with same | ⟨_, disk, reached, left, _⟩
    · rw [same]
      exact safe
    · rw [reached]
      dsimp only
      rcases left with same | appeared
      · rw [same]
        exact safe
      · rw [appeared]
        exact safe.appear (fills rfl)
  · have foreign : ¬ ReadFiles database path := by
      rintro (same | same)
      · exact log same
      · exact lasting.2 same
    rw [opened_other foreign]
    exact safe

/-- The lasting files of a database are as on another disk, or filled by reads. -/
def ReadSince (database : Path) (past disk : Disk Path Bytes) : Prop :=
  ∀ path, Lasting database path → NotClobbered (EmptyLog database path) (past path) (disk path)

theorem ReadSince.left {database : Path} {past disk : Disk Path Bytes}
    (since : ReadSince database past disk) (path : Path) (lasting : Lasting database path) :
    LeftByReads database path (past path).content (disk path).content := by
  rcases (since path lasting).content_eq with same | ⟨absent, file, ⟨log, rfl⟩, there⟩
  · exact Or.inl same
  · exact Or.inr ⟨log, absent, there⟩

theorem ReadSince.bundle {database : Path} {past disk : Disk Path Bytes} {was : Bundle}
    (since : ReadSince database past disk) (known : bundleAt past database = some was) :
    ∃ now, bundleAt disk database = some now ∧ was.OnlyRead now :=
  onlyRead_of_found known since.left

theorem ReadSince.read_eq [Sqlite] {database : Path} {past disk : Disk Path Bytes}
    (since : ReadSince database past disk) :
    readDatabase disk database = readDatabase past database := by
  unfold readDatabase
  cases known : bundleAt past database with
  | some was =>
    rcases since.bundle known with ⟨now, found, onlyRead⟩
    rw [found]
    exact onlyRead.read_eq
  | none =>
    have main : (disk database).content = (past database).content :=
      (since.left database (Lasting.main database)).eq_of_ne
        (sqliteSidecar_ne database (by simp [sidecarSuffixes])).symm
    have missing : bundleAt disk database = none :=
      Option.map_eq_none_iff.mpr (main.trans (Option.map_eq_none_iff.mp known))
    rw [missing]

/-! ## Databases that others leave alone -/

/-- The files of the database are as they were, but for what reads leave. -/
structure Intact (past : Disk Path Bytes) (database : Path) (rest : List Answer) (world : World) :
    Prop where
  calm : Calm (InBundle database) rest
  kept : ∀ path, Lasting database path →
    NotClobbered (fun file => (past path).now = none ∧ EmptyLog database path file) (past path)
      (world.disk path)

namespace Intact

variable {past : Disk Path Bytes} {database : Path} {rest : List Answer} {world : World}

theorem start (calm : Calm (InBundle database) rest) : Intact world.disk database rest world where
  calm := calm
  kept _ _ := NotClobbered.refl _

theorem since (intact : Intact past database rest world) : ReadSince database past world.disk :=
  fun path lasting => (intact.kept path lasting).mono fun _ => And.right

theorem aside {own : Path → Prop} (foreign : ∀ path, Lasting database path → ¬ own path) :
    Aside own (Intact past database) where
  turn answer rest world holds :=
    { calm := holds.calm.tail
      kept := fun path lasting => by
        change NotClobbered _ _ (answer.meddle path (world.disk path))
        rw [holds.calm.meddle lasting.1]
        exact holds.kept path lasting }
  change rest world reached holds within :=
    { calm := holds.calm
      kept := fun path lasting => by
        rcases within.outside path (foreign path lasting) with same | settled
        · rw [same]
          exact holds.kept path lasting
        · rw [settled]
          exact (holds.kept path lasting).settle }

/-- Reading a database leaves it intact. -/
theorem endures : Endures database (Intact past database) := by
  intro answer rest world holds
  refine ⟨holds.calm, fun path lasting => ?_⟩
  exact opened_notClobbered lasting (fun log absent => ⟨absent, log, rfl⟩)
    (holds.kept path lasting)

end Intact

/-- The files of a database on the medium. -/
structure OnMedium (disk : Disk Path Bytes) (database : Path) (bundle : Bundle) : Prop where
  found : bundleAt disk database = some bundle
  certain : ∀ file, InBundle database file → (disk file).Certain (disk file).content

/-- An intact database that was on the medium is found after any power loss. -/
theorem Intact.found {past : Disk Path Bytes} {database : Path} {bundle : Bundle}
    {rest : List Answer} {world : World} {found : Path → Option Bytes}
    (medium : OnMedium past database bundle) (intact : Intact past database rest world)
    (survives : Survives world.disk found) :
    ∃ now, bundleFound found database = some now ∧ bundle.OnlyRead now := by
  apply onlyRead_of_found medium.found
  intro path lasting
  have certain := medium.certain path lasting.1
  rcases (intact.kept path lasting).found certain (survives path) with same |
    ⟨file, ⟨absent, log, rfl⟩, content, there, exact⟩
  · exact Or.inl same
  · refine Or.inr ⟨log, ?_, ?_⟩
    · unfold Entry.content
      rw [absent]
      rfl
    · rw [there, exact rfl]

/-! ## Names -/

theorem push_eq_push {first second : Path} {stem tail tail' : String}
    (same : first.push tail = second.push (stem ++ tail')) (length : tail.length = tail'.length) :
    first = second.push stem ∧ tail = tail' := by
  have letters := congrArg (fun path => path.fileName.toList) same
  have parents := congrArg Path.parent same
  simp only [Path.push, String.toList_append, ← List.append_assoc] at letters parents
  rw [← String.length_toList, ← String.length_toList] at length
  rcases List.append_inj' letters length with ⟨names, tails⟩
  refine ⟨?_, String.toList_inj.mp tails⟩
  rw [← String.toList_append, String.toList_inj] at names
  cases first
  cases second
  cases parents
  cases names
  rfl

/-- A file that reads leave beside one database belongs to no other. -/
theorem ReadFiles.of_sidecar {first second path : Path} (left : ReadFiles first path)
    (right : IsSidecar second path) : first = second := by
  rcases right with ⟨suffix, listed, rfl⟩
  simp only [sidecarSuffixes, List.mem_cons, List.not_mem_nil, or_false] at listed
  unfold ReadFiles sqliteSidecar at left
  rcases listed with rfl | rfl | rfl
  · rcases left with same | same
    · have same' : first.push "-wal" = second.push ("" ++ "-wal") := same.symm
      simpa using (push_eq_push same' rfl).1
    · have same' : first.push "-shm" = second.push ("" ++ "-wal") := same.symm
      exact absurd (push_eq_push same' rfl).2 (by decide)
  · rcases left with same | same
    · have same' : first.push "-wal" = second.push ("" ++ "-shm") := same.symm
      exact absurd (push_eq_push same' rfl).2 (by decide)
    · have same' : first.push "-shm" = second.push ("" ++ "-shm") := same.symm
      simpa using (push_eq_push same' rfl).1
  · rcases left with same | same
    · have same' : first.push "-wal" = second.push ("-jou" ++ "rnal") := same.symm
      exact absurd (push_eq_push same' rfl).2 (by decide)
    · have same' : first.push "-shm" = second.push ("-jou" ++ "rnal") := same.symm
      exact absurd (push_eq_push same' rfl).2 (by decide)

end LocalHold.Maintenance
