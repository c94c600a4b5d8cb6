import Mathlib.Data.List.Basic

/-!
# Disks that a power loss can set back

A directory entry has a version that programs see now and the versions that a
power loss may bring back.  A file has a content that programs read now; unless
the file is synced, a power loss may leave any other content in it.  Syncing
the directory forgets the versions before.

`Entry.Leaves` says what may be found at an entry after a power loss, and
`Survives` what may be found on a whole disk.  The present is one of the
possibilities, so what holds of every survivor also holds when only the program
dies.
-/

namespace Durable

variable {P β : Type}

/-- A file and whether its content is on the medium. -/
structure File (β : Type) where
  content : β
  synced : Bool
deriving DecidableEq

/-- What is at a path, and what may come back. -/
structure Entry (β : Type) where
  now : Option (File β)
  before : List (Option (File β))
deriving DecidableEq

/-- The entries of all paths. -/
abbrev Disk (P β : Type) : Type :=
  P → Entry β

namespace Entry

/-- The bytes that programs read. -/
def content (entry : Entry β) : Option β :=
  entry.now.map File.content

/-- Another version takes the place of the present one. -/
def become (entry : Entry β) (version : Option (File β)) : Entry β where
  now := version
  before := entry.now :: entry.before

/-- New content in the file that is there. -/
def rewrite (entry : Entry β) (content : β) : Entry β where
  now := some ⟨content, false⟩
  before := entry.before

/-- A file on the medium, where nothing is. -/
def appear (entry : Entry β) (content : β) : Entry β :=
  match entry.now with
  | none => entry.become (some ⟨content, true⟩)
  | some _ => entry

/-- The content of the file is on the medium. -/
def harden (entry : Entry β) : Entry β where
  now := entry.now.map fun file => { file with synced := true }
  before := entry.before

/-- The directory is on the medium. -/
def settle (entry : Entry β) : Entry β where
  now := entry.now
  before := []

/-- What may be found where a version comes back. -/
def VersionLeaves (version : Option (File β)) (found : Option β) : Prop :=
  match version with
  | none => found = none
  | some file => ∃ content, found = some content ∧ (file.synced = true → content = file.content)

/-- What may be found at the entry after a power loss. -/
def Leaves (entry : Entry β) (found : Option β) : Prop :=
  ∃ version ∈ entry.now :: entry.before, VersionLeaves version found

/-- The entry can only be found with these bytes. -/
structure Certain (entry : Entry β) (content : Option β) : Prop where
  now : entry.now = content.map fun bytes => ⟨bytes, true⟩
  before : entry.before = []

theorem Certain.content_eq {entry : Entry β} {content : Option β}
    (certain : entry.Certain content) : entry.content = content := by
  unfold Entry.content
  rw [certain.now]
  cases content with
  | none => rfl
  | some bytes => rfl

theorem Certain.found {entry : Entry β} {content found : Option β}
    (certain : entry.Certain content) (leaves : entry.Leaves found) : found = content := by
  rcases leaves with ⟨version, listed, left⟩
  rw [certain.before, certain.now, List.mem_singleton] at listed
  subst listed
  cases content with
  | none => exact left
  | some bytes =>
    rcases left with ⟨kept, same, exact⟩
    rw [same, exact rfl]

theorem Certain.settle {entry : Entry β} {content : Option β}
    (certain : entry.Certain content) : entry.settle.Certain content :=
  ⟨certain.now, rfl⟩

end Entry

/-! ## Entries that are only filled -/

/-- An entry is what others made it, or a whole file where they left nothing. -/
structure NotClobbered (whole : File β → Prop) (others entry : Entry β) : Prop where
  now : entry.now = others.now ∨ others.now = none ∧ ∃ file, whole file ∧ entry.now = some file
  versions : ∀ version ∈ entry.now :: entry.before,
    version ∈ others.now :: others.before ∨ ∃ file, whole file ∧ version = some file

namespace NotClobbered

variable {whole whole' : File β → Prop} {others entry : Entry β}

theorem refl (entry : Entry β) : NotClobbered whole entry entry where
  now := Or.inl rfl
  versions _ listed := Or.inl listed

theorem mono (safe : NotClobbered whole others entry)
    (weaker : ∀ file, whole file → whole' file) : NotClobbered whole' others entry where
  now := safe.now.imp id fun ⟨absent, file, complete, there⟩ =>
    ⟨absent, file, weaker file complete, there⟩
  versions version listed := (safe.versions version listed).imp id fun ⟨file, complete, there⟩ =>
    ⟨file, weaker file complete, there⟩

/-- Others put the same version in both. -/
theorem become (safe : NotClobbered whole others entry) (version : Option (File β)) :
    NotClobbered whole (others.become version) (entry.become version) where
  now := Or.inl rfl
  versions other listed := by
    rcases List.mem_cons.mp listed with same | earlier
    · exact Or.inl (List.mem_cons.mpr (Or.inl same))
    · exact (safe.versions other earlier).imp (List.mem_cons_of_mem _) id

theorem settle (safe : NotClobbered whole others entry) :
    NotClobbered whole others entry.settle where
  now := safe.now
  versions version listed := by
    rcases List.mem_cons.mp listed with same | impossible
    · exact safe.versions version (List.mem_cons.mpr (Or.inl same))
    · cases impossible

/-- A whole file is put where nothing is. -/
theorem publish (safe : NotClobbered whole others entry) {file : File β}
    (complete : whole file) (absent : entry.now = none) :
    NotClobbered whole others (entry.become (some file)) where
  now := by
    rcases safe.now with same | ⟨_, other, _, there⟩
    · exact Or.inr ⟨same.symm.trans absent, file, complete, rfl⟩
    · rw [absent] at there
      cases there
  versions version listed := by
    rcases List.mem_cons.mp listed with same | earlier
    · exact Or.inr ⟨file, complete, same⟩
    · exact safe.versions version earlier

theorem appear (safe : NotClobbered whole others entry) {content : β}
    (complete : others.now = none → whole ⟨content, true⟩) :
    NotClobbered whole others (entry.appear content) := by
  unfold Entry.appear
  cases present : entry.now with
  | some file => exact safe
  | none =>
    apply safe.publish (complete _) present
    rcases safe.now with same | ⟨absent, _⟩
    · rw [← same]
      exact present
    · exact absent

/-- What programs read in the entry. -/
theorem content_eq (safe : NotClobbered whole others entry) :
    entry.content = others.content ∨
      others.content = none ∧ ∃ file, whole file ∧ entry.content = some file.content := by
  unfold Entry.content
  rcases safe.now with same | ⟨absent, file, complete, there⟩
  · rw [same]
    exact Or.inl rfl
  · rw [absent, there]
    exact Or.inr ⟨rfl, file, complete, rfl⟩

/-- What a power loss leaves where the others' version was certain. -/
theorem found {content found : Option β} (safe : NotClobbered whole others entry)
    (certain : others.Certain content) (leaves : entry.Leaves found) :
    found = content ∨ ∃ file, whole file ∧ Entry.VersionLeaves (some file) found := by
  rcases leaves with ⟨version, listed, left⟩
  rcases safe.versions version listed with theirs | ⟨file, complete, rfl⟩
  · exact Or.inl (certain.found ⟨version, theirs, left⟩)
  · exact Or.inr ⟨file, complete, left⟩

end NotClobbered

/-- What may be found on the disk after a power loss. -/
def Survives (disk : Disk P β) (found : P → Option β) : Prop :=
  ∀ path, (disk path).Leaves (found path)

namespace Disk

variable [DecidableEq P]

/-- Change one entry. -/
def update (disk : Disk P β) (path : P) (change : Entry β → Entry β) : Disk P β :=
  fun other => if other = path then change (disk path) else disk other

@[simp] theorem update_same (disk : Disk P β) (path : P) (change : Entry β → Entry β) :
    disk.update path change path = change (disk path) := by
  simp [Disk.update]

theorem update_other (disk : Disk P β) {path other : P} (change : Entry β → Entry β)
    (different : other ≠ path) : disk.update path change other = disk other := by
  simp [Disk.update, different]

/-- Sync a directory: every entry in it settles. -/
def settleWhere (disk : Disk P β) (inDirectory : P → Bool) : Disk P β :=
  fun path => if inDirectory path then (disk path).settle else disk path

omit [DecidableEq P] in
theorem settleWhere_apply (disk : Disk P β) (inDirectory : P → Bool) (path : P) :
    disk.settleWhere inDirectory path = (disk path).settle ∨
      disk.settleWhere inDirectory path = disk path := by
  unfold settleWhere
  split
  · exact Or.inl rfl
  · exact Or.inr rfl

end Disk

end Durable
