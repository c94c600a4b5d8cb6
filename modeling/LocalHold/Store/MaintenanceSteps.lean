import LocalHold.Store.MaintenanceFrames

/-!
# What the maintenance steps achieve

An assertion that a step cannot touch is carried along; what the step adds is
said of the entries it writes.  The assertions about entries hold as long as
others leave those paths alone.
-/

namespace LocalHold.Maintenance

open Durable Transition.Interrupts Transition.Interrupts.Interruptible

/-! ## Entries that others leave alone -/

/-- Others leave some paths alone. -/
def Calm (paths : Path → Prop) (script : List Answer) : Prop :=
  ∀ answer ∈ script, ∀ change ∈ answer.meanwhile, ¬ paths change.1

theorem Calm.mono {paths paths' : Path → Prop} {script : List Answer} (calm : Calm paths script)
    (fewer : ∀ path, paths' path → paths path) : Calm paths' script :=
  fun answer listed change made member => calm answer listed change made (fewer _ member)

theorem Calm.tail {paths : Path → Prop} {answer : Answer} {rest : List Answer}
    (calm : Calm paths (answer :: rest)) : Calm paths rest :=
  fun other listed => calm other (List.mem_cons_of_mem answer listed)

theorem calm_replicate (paths : Path → Prop) (count : Nat) {answer : Answer}
    (alone : answer.meanwhile = []) : Calm paths (List.replicate count answer) := by
  intro other listed change made
  rw [List.eq_of_mem_replicate listed, alone] at made
  cases made

theorem Calm.aside {own : Path → Prop} (paths : Path → Prop) :
    Aside own (fun rest _ => Calm paths rest) where
  turn _ _ _ calm := calm.tail
  change _ _ _ calm _ := calm

theorem othersPut_foldl {path : Path} {changes : List (Path × Option Bytes)}
    (untouched : ∀ change ∈ changes, change.1 ≠ path) (entry : Entry Bytes) :
    changes.foldl (othersPut path) entry = entry := by
  induction changes with
  | nil => rfl
  | cons change changes inductionHypothesis =>
    have same : othersPut path entry change = entry := by
      unfold othersPut
      rw [if_neg (untouched change List.mem_cons_self)]
    rw [List.foldl_cons, same]
    exact inductionHypothesis fun other made =>
      untouched other (List.mem_cons_of_mem change made)

theorem Calm.meddle {paths : Path → Prop} {answer : Answer} {rest : List Answer} {path : Path}
    (calm : Calm paths (answer :: rest)) (member : paths path) (entry : Entry Bytes) :
    answer.meddle path entry = entry := by
  apply othersPut_foldl
  rintro change made rfl
  exact calm answer List.mem_cons_self change made member

/-- A fact about an entry that others leave alone. -/
def Holding (path : Path) (fact : Entry Bytes → Prop) (rest : List Answer) (world : World) : Prop :=
  Calm (fun other => other = path) rest ∧ fact (world.disk path)

theorem Holding.turn {path : Path} {fact : Entry Bytes → Prop} (answer : Answer)
    (rest : List Answer) (world : World) (holds : Holding path fact (answer :: rest) world) :
    Holding path fact rest (world.meanwhile answer) := by
  refine ⟨holds.1.tail, ?_⟩
  change fact (answer.meddle path (world.disk path))
  rw [holds.1.meddle rfl]
  exact holds.2

theorem Holding.aside {own : Path → Prop} {path : Path} {fact : Entry Bytes → Prop}
    (foreign : ¬ own path) (settles : ∀ entry, fact entry → fact entry.settle) :
    Aside own (Holding path fact) where
  turn := Holding.turn
  change rest world reached holds within := by
    refine ⟨holds.1, ?_⟩
    rcases within.outside path foreign with same | settled
    · rw [same]
      exact holds.2
    · rw [settled]
      exact settles _ holds.2

theorem Aside.all {ι : Type} {own : Path → Prop} {chosen : ι → Prop}
    {family : ι → List Answer → World → Prop}
    (each : ∀ index, chosen index → Aside own (family index)) :
    Aside own (fun rest world => ∀ index, chosen index → family index rest world) where
  turn answer rest world holds := fun index member =>
    (each index member).turn answer rest world (holds index member)
  change rest world reached holds within := fun index member =>
    (each index member).change rest world reached (holds index member) within

/-! ## Entries as they were -/

/-- The entry is as it was, or has settled since. -/
def SinceThen (past entry : Entry Bytes) : Prop :=
  entry = past ∨ entry = past.settle

theorem SinceThen.settle {past entry : Entry Bytes} (since : SinceThen past entry) :
    SinceThen past entry.settle := by
  rcases since with rfl | rfl
  · exact Or.inr rfl
  · exact Or.inr rfl

theorem SinceThen.content_eq {past entry : Entry Bytes} (since : SinceThen past entry) :
    entry.content = past.content := by
  rcases since with rfl | rfl
  · rfl
  · rfl

/-- Some paths are as they were, and others leave them alone. -/
def AsThen (paths : Path → Prop) (past : Disk Path Bytes) (rest : List Answer) (world : World) :
    Prop :=
  ∀ path, paths path → Holding path (SinceThen (past path)) rest world

theorem AsThen.aside {own paths : Path → Prop} {past : Disk Path Bytes}
    (apart : ∀ path, paths path → ¬ own path) : Aside own (AsThen paths past) :=
  Aside.all fun path member => Holding.aside (apart path member) fun _ since => since.settle

theorem AsThen.start {paths : Path → Prop} {script : List Answer} {world : World}
    (calm : Calm paths script) : AsThen paths world.disk script world :=
  fun _ member => ⟨calm.mono fun _ same => same ▸ member, Or.inl rfl⟩

/-- Assertions that the turns of others keep. -/
def Patient (kept : List Answer → World → Prop) : Prop :=
  ∀ answer rest world, kept (answer :: rest) world → kept rest (world.meanwhile answer)

theorem Patient.both {first second : List Answer → World → Prop} (left : Patient first)
    (right : Patient second) : Patient (fun rest world => first rest world ∧ second rest world) :=
  fun answer rest world holds =>
    ⟨left answer rest world holds.1, right answer rest world holds.2⟩

section Calls

variable {α : Type} {kept : List Answer → World → Prop}
  {act : Disk Path Bytes → Except IoError α × Disk Path Bytes}
  {failure : IoError → MaintenanceFailure}

/-- The call was refused, or done. -/
def Performed (act : Disk Path Bytes → Except IoError α × Disk Path Bytes) (before : World)
    (result : Except IoError α) (world : World) : Prop :=
  ((∃ message, result = .error (.other message)) ∧ world = before) ∨
    (result = (act before.disk).1 ∧ world = { before with disk := (act before.disk).2 })

/-- A call starts in a world in which the assertion still holds. -/
theorem io_ensures (patient : Patient kept) :
    Ensures kept (io act)
      (fun result rest world => ∃ before, kept rest before ∧ Performed act before result world)
      (fun _ _ _ => False) kept := by
  apply Ensures.call
  · intro answer rest world holds
    refine ⟨world.meanwhile answer, patient answer rest world holds, ?_⟩
    dsimp only
    cases answer.refusal with
    | some message => exact Or.inl ⟨⟨message, rfl⟩, rfl⟩
    | none => exact Or.inr ⟨rfl, rfl⟩
  · intro world holds
    exact holds

/-- A call that may not fail has been done. -/
theorem orFail_ensures (act : Disk Path Bytes → Except IoError α × Disk Path Bytes)
    (failure : IoError → MaintenanceFailure) (patient : Patient kept) :
    Ensures kept (orFail (io act) failure)
      (fun value rest world => ∃ before, kept rest before ∧ (act before.disk).1 = .ok value ∧
        world = { before with disk := (act before.disk).2 })
      (fun _ rest world => ∃ before, kept rest before ∧
        ∃ error, Performed act before (.error error) world)
      kept := by
  apply Ensures.bind ((io_ensures patient).mono (fun _ _ => id) (fun _ _ _ => id)
    (fun _ _ _ impossible => impossible.elim) (fun _ _ => id))
  intro result
  cases result with
  | ok value =>
    apply Ensures.pure
    rintro rest world ⟨before, holds, ⟨⟨message, refused⟩, _⟩ | ⟨succeeded, reached⟩⟩
    · cases refused
    · exact ⟨before, holds, succeeded.symm, reached⟩
  | error error =>
    apply Ensures.fail
    rintro rest world ⟨before, holds, performed⟩
    exact ⟨before, holds, error, performed⟩

/-- The same for a call that is confined: the assertion goes on. -/
theorem orFail_effect {own : Path → Prop} {effect : α → List Answer → World → Prop}
    (aside : Aside own kept) (confined : Confined own (orFail (io act) failure))
    {company : List Answer → World → Prop} (patient : Patient company)
    (effects : ∀ value rest before, kept rest before → company rest before →
      (act before.disk).1 = .ok value →
      effect value rest { before with disk := (act before.disk).2 }) :
    Ensures (fun rest world => kept rest world ∧ company rest world) (orFail (io act) failure)
      (fun value rest world => kept rest world ∧ effect value rest world)
      (fun _ => kept) kept := by
  have called := orFail_ensures act failure (Patient.both aside.turn patient)
  apply Ensures.mono (called.with (confined kept aside))
  · rintro script world ⟨holds, accompanied⟩
    exact ⟨⟨holds, accompanied⟩, holds⟩
  · rintro value rest world ⟨⟨before, ⟨held, accompanied⟩, succeeded, rfl⟩, holds⟩
    exact ⟨holds, effects value rest before held accompanied succeeded⟩
  · rintro failed rest world ⟨_, holds⟩
    exact holds
  · rintro rest world ⟨_, holds⟩
    exact holds

end Calls

/-! ## Files -/

/-- The bytes of the files of a database in one file. -/
structure Stored (database : Path) (bytes : Bytes) (synced : Bool) (disk : Disk Path Bytes) :
    Prop where
  main : (disk database).now = some ⟨bytes, synced⟩
  sidecars : ∀ suffix ∈ sidecarSuffixes, (disk (sqliteSidecar database suffix)).now = none

theorem sqliteSidecar_ne (database : Path) {suffix : String} (listed : suffix ∈ sidecarSuffixes) :
    sqliteSidecar database suffix ≠ database := by
  intro same
  have empty : database.push suffix = database.push "" := by
    rw [push_empty]
    exact same
  rw [push_inj] at empty
  subst empty
  simp [sidecarSuffixes] at listed

theorem placeBundle_stored (disk : Disk Path Bytes) (database : Path) (bytes : Bytes) :
    Stored database bytes false (placeBundle disk database (.single bytes)) := by
  have wal : sqliteSidecar database "-wal" ≠ database :=
    sqliteSidecar_ne database (by simp [sidecarSuffixes])
  have shm : sqliteSidecar database "-shm" ≠ database :=
    sqliteSidecar_ne database (by simp [sidecarSuffixes])
  have journal : sqliteSidecar database "-journal" ≠ database :=
    sqliteSidecar_ne database (by simp [sidecarSuffixes])
  constructor
  · unfold placeBundle
    rw [Disk.update_other _ _ journal.symm, Disk.update_other _ _ shm.symm,
      Disk.update_other _ _ wal.symm, Disk.update_same]
    rfl
  · intro suffix listed
    simp only [sidecarSuffixes, List.mem_cons, List.not_mem_nil, or_false] at listed
    unfold placeBundle
    rcases listed with rfl | rfl | rfl
    · rw [Disk.update_other _ _ (by simp [sqliteSidecar]),
        Disk.update_other _ _ (by simp [sqliteSidecar]), Disk.update_same]
      rfl
    · rw [Disk.update_other _ _ (by simp [sqliteSidecar]), Disk.update_same]
      rfl
    · rw [Disk.update_same]
      rfl

/-- The files of a database that others leave alone. -/
def Keeping (database : Path) (fact : Disk Path Bytes → Prop) (rest : List Answer)
    (world : World) : Prop :=
  Calm (InBundle database) rest ∧ fact world.disk

theorem Stored.patient {database : Path} {bytes : Bytes} {synced : Bool} :
    Patient (Keeping database (Stored database bytes synced)) := by
  rintro answer rest world ⟨calm, stored⟩
  refine ⟨calm.tail, ?_, ?_⟩
  · change (answer.meddle database (world.disk database)).now = _
    rw [calm.meddle (InBundle.main database)]
    exact stored.main
  · intro suffix listed
    change (answer.meddle _ (world.disk _)).now = _
    rw [calm.meddle (InBundle.sidecar database suffix listed)]
    exact stored.sidecars suffix listed

theorem syncFile_ensures {database : Path} {bytes : Bytes} {kept : List Answer → World → Prop}
    (aside : Aside (InBundle database) kept) :
    Ensures (fun rest world => kept rest world ∧
        Keeping database (Stored database bytes false) rest world)
      (syncFile database)
      (fun _ rest world => kept rest world ∧
        Keeping database (Stored database bytes true) rest world)
      (fun _ => kept) kept := by
  apply orFail_effect aside (syncFile_confined (InBundle.main database)) Stored.patient
  rintro value rest before _ ⟨calm, stored⟩ _
  refine ⟨calm, ?_⟩
  have present : isPresent before.disk database = true := by
    unfold isPresent
    rw [stored.main]
    rfl
  dsimp only
  rw [if_pos present]
  constructor
  · dsimp only
    rw [Disk.update_same]
    unfold Entry.harden
    rw [stored.main]
    rfl
  · intro suffix listed
    dsimp only
    rw [Disk.update_other _ _ (sqliteSidecar_ne database listed)]
    exact stored.sidecars suffix listed

section Engine

variable [Sqlite] {kept : List Answer → World → Prop} {source destination : Path}
  {fact : Sqlite.Content → List Answer → World → Prop} {policy : CopyPolicy}

/-- A finished copy has stored what the connection to the source reads, and
what is true of it. -/
theorem copyDatabase_ensures (aside : Aside (InBundle destination) kept)
    (endures : Endures source kept) (stable : ∀ content, Aside (InBundle destination) (fact content))
    (calm : ∀ rest world, kept rest world → Calm (InBundle destination) rest)
    (reads : ∀ rest world content, kept rest world →
      readDatabase world.disk source = .ok content → fact content rest world) :
    Ensures kept (copyDatabase source destination policy)
      (fun _ rest world => kept rest world ∧ ∃ content, fact content rest world ∧
        Keeping destination (Stored destination (Sqlite.image content) false) rest world)
      (fun _ => kept) kept := by
  have mine : ∀ file, InBundle destination file → InBundle destination file := fun _ => id
  apply Ensures.bind (permitted_confined _ kept aside)
  intro _
  apply Ensures.bind (Confined.ask (fun _ world => Within.refl world) kept aside)
  intro started
  apply Ensures.loop (fun _ => kept)
  · intro steps answer rest world _ holds _
    exact copyTurn_keeps aside endures mine holds
  · intro steps answer rest world value holds stopped
    refine ⟨copyTurn_keeps aside endures mine holds, ?_⟩
    have opened := endures answer rest _ (aside.turn answer rest world holds)
    rcases copyTurn_cases source destination started policy steps answer world _ rfl with
      ⟨content, read, taken⟩ | ⟨_, unfinished⟩
    · refine ⟨content, ?_, ?_⟩
      · apply (stable content).change rest _ _ (reads rest _ content opened read)
        rw [taken]
        exact placeBundle_within mine
      · rw [taken]
        exact ⟨calm rest _ opened, placeBundle_stored _ destination _⟩
    · exact absurd stopped unfinished
  · intro steps answer rest world _ holds _
    exact copyTurn_keeps aside endures mine holds
  · intro _ world holds
    exact holds

/-- A private snapshot is on the medium when it is done. -/
theorem snapshotPath_ensures (aside : Aside (InBundle destination) kept)
    (endures : Endures source kept) (stable : ∀ content, Aside (InBundle destination) (fact content))
    (calm : ∀ rest world, kept rest world → Calm (InBundle destination) rest)
    (reads : ∀ rest world content, kept rest world →
      readDatabase world.disk source = .ok content → fact content rest world) :
    Ensures kept (snapshotPath source destination policy)
      (fun _ rest world => kept rest world ∧ ∃ content, fact content rest world ∧
        Keeping destination (Stored destination (Sqlite.image content) true) rest world)
      (fun _ => kept) kept := by
  have main := InBundle.main destination
  apply Ensures.bind (Confined.orFail metadata_confined kept aside)
  intro _
  apply Ensures.bind (permitted_confined _ kept aside)
  intro _
  apply Ensures.bind (openReadOnly_reader _ kept aside endures)
  intro _
  apply Ensures.bind (permitted_confined _ kept aside)
  intro _
  apply Ensures.bind (createSecureEmptyFile_confined main kept aside)
  intro _
  apply Ensures.bind (openReadWrite_confined main _ kept aside)
  intro _
  apply Ensures.bind (permitted_confined _ kept aside)
  intro _
  apply Ensures.bind (copyDatabase_ensures aside endures stable calm reads)
  intro _
  apply Ensures.choose
  rintro script world ⟨holds, content, read, stored⟩
  refine ⟨fun rest world => (kept rest world ∧ fact content rest world) ∧
    Keeping destination (Stored destination (Sqlite.image content) false) rest world,
    ⟨⟨holds, read⟩, stored⟩, ?_⟩
  exact Ensures.mono (syncFile_ensures (aside.both (stable content))) (fun _ _ => id)
    (fun _ _ _ outcome => ⟨outcome.1.1, content, outcome.1.2, outcome.2⟩)
    (fun _ _ _ => And.left) (fun _ _ => And.left)

end Engine

/-! ## Single files -/

section Files

variable {kept : List Answer → World → Prop} {path : Path} {bytes : Bytes}

/-- The file at an entry. -/
def Has (bytes : Bytes) (synced : Bool) (entry : Entry Bytes) : Prop :=
  entry.now = some ⟨bytes, synced⟩

theorem temporaryPath_ensures {own : Path → Prop} (aside : Aside own kept) (base : Path)
    (label : String) :
    Ensures kept (temporaryPath base label)
      (fun temporary rest world => kept rest world ∧
        ∃ tail, temporary = base.push (".localhold" ++ tail))
      (fun _ => kept) kept := by
  intro script world holds
  exact ⟨temporaryPath_confined base label kept aside script world holds, _,
    temporary_private base _⟩

theorem dotted_localhold : ['.'] <+: ".localhold".toList := by
  decide

/-! ## Removals -/

/-- A removal that only logs its errors does not fail. -/
theorem removeIfExists_ensures {own : Path → Prop}
    {failing : MaintenanceFailure → List Answer → World → Prop} (aside : Aside own kept)
    (mine : own path) :
    Ensures kept (removeIfExists path) (fun _ => kept) failing kept := by
  have removed : Ensures kept (removeFile path) (fun _ => kept) failing kept := by
    have called : Ensures kept (removeFile path) (fun _ _ _ => True) (fun _ _ _ => False) kept :=
      (io_ensures aside.turn).mono (fun _ _ => id) (fun _ _ _ _ => trivial) (fun _ _ _ => id)
        (fun _ _ => id)
    exact (called.with (removeFile_confined mine kept aside)).mono
      (fun _ _ holds => ⟨holds, holds⟩) (fun _ _ _ => And.right)
      (fun _ _ _ impossible => impossible.1.elim) (fun _ _ => And.right)
  apply Ensures.bind removed
  intro _
  exact Ensures.pure fun _ _ => id

/-- A sidecar of the database at a path. -/
def IsSidecar (database file : Path) : Prop :=
  ∃ suffix ∈ sidecarSuffixes, file = sqliteSidecar database suffix

end Files

/-! ## Reports -/

/-- A reported operation does not fail: its failure is told in the report. -/
theorem reported_ensures {kept : List Answer → World → Prop} {operation : String}
    {source destination : Path} {dryRun : Bool} {work : Work MaintenanceReport}
    {after : MaintenanceReport → List Answer → World → Prop}
    {failing : MaintenanceFailure → List Answer → World → Prop} {cut : List Answer → World → Prop}
    (holds : Ensures kept work after failing cut)
    (told : ∀ failure rest world, failing failure rest world →
      after (failureReport operation source destination dryRun failure) rest world) :
    Ensures kept (reported operation source destination dryRun work) after
      (fun _ _ _ => False) cut := by
  apply Ensures.bind holds.attempt
  intro result
  cases result with
  | ok report => exact Ensures.pure fun _ _ => id
  | error failure => exact Ensures.pure (told failure)

end LocalHold.Maintenance
