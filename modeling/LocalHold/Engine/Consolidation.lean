import LocalHold.Store.Query
import LocalHold.Store.Supersession

/-!
# Consolidation

A consolidation run lists candidates, decides on groups of near duplicates, and
marks the members of each group as superseded by its representative, one
transaction a member.  The listing takes three statements: the candidate rows
with their record revisions, their vectors, and their memberships; other
processes may write between any two of them and between the marks.

Which pairs of snapshots a run merges depends on similarities.  The model lets
a run merge any two snapshots of its listing.
-/

namespace LocalHold

open Relational Hierarchy Transition Transition.Txn

/-! ## The candidate listing -/

/-- `ORDER BY created_at DESC, id DESC` on the stored text. -/
def createdAfter [Host] (first second : MemoryRow) : Bool :=
  decide (Host.toRfc3339 second.createdAt < Host.toRfc3339 first.createdAt) ||
    (Host.toRfc3339 first.createdAt == Host.toRfc3339 second.createdAt &&
      decide (second.id.display ≤ first.id.display))

/-- The row conditions of `list_memories_with_embeddings`. -/
def Db.isConsolidationCandidate [Host] (db : Db)
    (contextIds legacyContextIdsAny : Option (List ContextId)) (principal : String)
    (now : Instant) (row : MemoryRow) : Bool :=
  row.hasEmbedding == 1 && row.supersededBy.isNone &&
    (row.expiresAt.all fun expiry => decide (Host.toRfc3339 now < Host.toRfc3339 expiry)) &&
    (db.vectorOf row.id).isSome && sqlWriteFilter (some principal) row &&
    sqlContexts { MemoryFilter.default with contextIds, legacyContextIdsAny } (db.stored row)

/-- The first statement of `list_memories_with_embeddings`. -/
def Db.consolidationCandidates [Host] (db : Db)
    (contextIds legacyContextIdsAny : Option (List ContextId)) (principal : String)
    (now : Instant) (limit : Nat) : List MemoryRow :=
  ((db.memories.select
    (db.isConsolidationCandidate contextIds legacyContextIdsAny principal now)).mergeSort
      createdAfter).take limit

/-! ## Runs in progress -/

/-- How far the listing of a consolidation run has come. -/
inductive ConsolidationListing where
  | discovered (candidates : List (MemoryId × Int))
  | embedded (candidates : List (MemoryId × Int))
  | listed (snapshots : List ConsolidationSnapshot)
deriving DecidableEq

/-- The memories and record revisions that a listing knows. -/
def ConsolidationListing.known : ConsolidationListing → List (MemoryId × Int)
  | .discovered candidates => candidates
  | .embedded candidates => candidates
  | .listed snapshots => snapshots.map fun snapshot => (snapshot.memoryId, snapshot.recordRevision)

/-- A consolidation run of a principal. -/
structure ConsolidationRun where
  principal : String
  listing : ConsolidationListing
deriving DecidableEq

/-- The shared store and the consolidation runs of all processes. -/
structure ConsolidationWorld where
  db : Db
  runs : List ConsolidationRun

/-- Clients write, and consolidation runs take their next step. -/
inductive ConsolidationEvent where
  | client (call : StoreCall)
  | discover (principal : String) (contextIds legacyContextIdsAny : Option (List ContextId))
      (now : Instant) (limit : Nat)
  | fetchVectors (index : Nat)
  | fetchMemberships (index : Nat)
  | merge (index : Nat) (member representative : ConsolidationSnapshot) (audit : AuditDraft)

/-- A world in which one run has come further. -/
def ConsolidationWorld.advance (world : ConsolidationWorld) (index : Nat)
    (consolidation : ConsolidationRun) (listing : ConsolidationListing) : ConsolidationWorld :=
  { world with runs := world.runs.set index { consolidation with listing := listing } }

/-- One step of a client or of a consolidation run. -/
def consolidationStep [Host] (world : ConsolidationWorld) :
    ConsolidationEvent → Option ConsolidationWorld
  | .client call =>
      if call.command.fromClient then
        (storeStep world.db call).map fun db => { world with db := db }
      else
        none
  | .discover principal contextIds legacyContextIdsAny now limit =>
      let rows := world.db.consolidationCandidates contextIds legacyContextIdsAny principal now
        limit
      some { world with
        runs := world.runs ++
          [⟨principal, .discovered (rows.map fun row => (row.id, row.recordRevision))⟩] }
  | .fetchVectors index =>
      match world.runs[index]? with
      | some ⟨principal, .discovered candidates⟩ =>
          some (world.advance index ⟨principal, .discovered candidates⟩
            (.embedded (candidates.filter fun candidate =>
              (world.db.vectorOf candidate.1).isSome)))
      | _ => none
  | .fetchMemberships index =>
      match world.runs[index]? with
      | some ⟨principal, .embedded candidates⟩ =>
          some (world.advance index ⟨principal, .embedded candidates⟩
            (.listed (candidates.map fun candidate =>
              ⟨candidate.1, candidate.2, world.db.consolidationContextProfile candidate.1⟩)))
      | _ => none
  | .merge index member representative audit =>
      match world.runs[index]? with
      | some ⟨principal, .listed snapshots⟩ =>
          if member ∈ snapshots ∧ representative ∈ snapshots then
            some { world with
              db := world.db.commit
                (markSupersededIfUnchanged member representative principal audit) }
          else
            none
      | _ => none

/-! ## The representative is not superseded -/

/-- A memory was seen unsuperseded at a record revision, and the store changed
soundly since. -/
def SeenUnsuperseded (db : Db) (id : MemoryId) (revision : Int) : Prop :=
  ∃ before view, before.view id = some view ∧ view.recordRevision = revision ∧
    view.columns.supersededBy = none ∧ Sound before db

theorem SeenUnsuperseded.later {db next : Db} {id : MemoryId} {revision : Int}
    (seen : SeenUnsuperseded db id revision) (sound : Sound db next) :
    SeenUnsuperseded next id revision := by
  obtain ⟨before, view, viewEq, revisionEq, unsuperseded, early⟩ := seen
  exact ⟨before, view, viewEq, revisionEq, unsuperseded, IsTrans.trans _ _ _ early sound⟩

/-- A memory that still has the revision it was seen at is still unsuperseded. -/
theorem SeenUnsuperseded.link_eq {db : Db} {id : MemoryId} {row : MemoryRow}
    (seen : SeenUnsuperseded db id row.recordRevision)
    (found : db.memories.find? id = some row) : db.link id = some none := by
  obtain ⟨before, view, viewEq, revisionEq, unsuperseded, sound⟩ := seen
  have newView : db.view id = some ⟨row.recordRevision, row.revisedColumns, db.attachments id⟩ := by
    rw [Db.view, found, Option.map_some]
  obtain ⟨old, new, oldEq, newEq, sameColumns, _⟩ :=
    sound.unchangedAt (Std.Refl.refl db) viewEq newView revisionEq
  cases viewEq.symm.trans oldEq
  cases newView.symm.trans newEq
  rw [Db.link_of_find? found]
  exact congrArg some ((congrArg RevisedColumns.supersededBy sameColumns).symm.trans unsuperseded)

/-- Candidates are unsuperseded when they are discovered. -/
theorem Db.seenUnsuperseded_of_candidate [Host] {db : Db}
    {contextIds legacyContextIdsAny : Option (List ContextId)} {principal : String}
    {now : Instant} {limit : Nat} {row : MemoryRow}
    (candidate : row ∈ db.consolidationCandidates contextIds legacyContextIdsAny principal now
      limit) :
    SeenUnsuperseded db row.id row.recordRevision := by
  have selected := List.mem_mergeSort.mp (List.mem_of_mem_take candidate)
  obtain ⟨rowMem, conditions⟩ := Table.mem_select_iff.mp selected
  have found : db.memories.find? row.id = some row :=
    Table.find?_eq_some_iff.mpr ⟨rowMem, rfl⟩
  simp only [Db.isConsolidationCandidate, Bool.and_eq_true] at conditions
  have unsuperseded := Option.isNone_iff_eq_none.mp conditions.1.1.1.1.2
  exact ⟨db, ⟨row.recordRevision, row.revisedColumns, db.attachments row.id⟩,
    by rw [Db.view, found, Option.map_some], rfl, unsuperseded, Std.Refl.refl db⟩

/-- What an applied mark found in the state it was applied to. -/
structure MergedInto (db next : Db) (member representative : MemoryId) : Prop where
  distinct : member ≠ representative
  unmarked : db.link member = some none
  representativeStored : db.link representative ≠ none
  sameContexts : db.consolidationContextProfile member =
    db.consolidationContextProfile representative
  links : ∀ other, next.link other =
    if other = member then some (some representative) else db.link other

/-- A successful guarded mark leaves every link, or links the member to a
representative that still has the revision of its snapshot. -/
theorem merged_of_markSupersededIfUnchanged {member representative : ConsolidationSnapshot}
    {principal : String} {audit : AuditDraft} {db next : Db} {outcome : WriteOutcome}
    (ran : markSupersededIfUnchanged member representative principal audit db =
      .ok (outcome, next)) :
    next.link = db.link ∨
      (MergedInto db next member.memoryId representative.memoryId ∧
        ∃ row, db.memories.find? representative.memoryId = some row ∧
          row.recordRevision = representative.recordRevision) := by
  obtain ⟨distinct, ran⟩ := of_require_bind ran
  obtain ⟨sameSnapshots, ran⟩ := of_require_bind ran
  have ran := of_reads_bind ran
  cases foundMember : db.memories.find? member.memoryId with
  | none =>
      rw [foundMember] at ran
      cases pure_eq_ok.mp ran
      exact Or.inl rfl
  | some memberRow =>
      rw [foundMember] at ran
      have ran := of_reads_bind ran
      cases foundRepresentative : db.memories.find? representative.memoryId with
      | none =>
          rw [foundRepresentative] at ran
          cases pure_eq_ok.mp ran
          exact Or.inl rfl
      | some row =>
          rw [foundRepresentative] at ran
          dsimp only [Option.map_some] at ran
          split at ran
          · have ran := of_reads_bind ran
            have ran := of_reads_bind ran
            obtain ⟨unchanged, ran⟩ := of_require_bind ran
            simp only [Bool.and_eq_true, beq_iff_eq] at unchanged
            obtain ⟨⟨⟨_, sameRevision⟩, memberContexts⟩, representativeContexts⟩ := unchanged
            obtain ⟨marked, middle, markRan, ran⟩ := bind_eq_ok.mp ran
            obtain ⟨_, _, audited, done⟩ := bind_eq_ok.mp ran
            cases pure_eq_ok.mp done
            have sameLinks : next.link = middle.link := by
              have kept : LeavesLinks (onSome (if marked then some audit else none)
                  (insertAuditDraft memberRow.toMemory.id)) :=
                Within.onSome fun _ _ => (quiet_insertAuditDraft _ _).leavesLinks
              exact (Prod.mk.inj (kept audited)).2
            rcases link_markSuperseded markRan with ⟨_, same⟩ | ⟨_, unmarked, links⟩
            · rw [sameLinks, same]
              exact Or.inl rfl
            · refine Or.inr ⟨⟨bne_iff_ne.mp distinct, unmarked, ?_, ?_, ?_⟩, row, rfl,
                sameRevision⟩
              · rw [Db.link_of_find? foundRepresentative]
                exact Option.some_ne_none _
              · rw [memberContexts, representativeContexts, beq_iff_eq.mp sameSnapshots]
              · rw [sameLinks]
                exact links
          · cases pure_eq_ok.mp ran
            exact Or.inl rfl

/-! ## Steps -/

variable [Host]

/-- The links form a forest, and every memory a run knows was seen unsuperseded
at the revision the run recorded. -/
structure ConsolidationWorld.Consistent (world : ConsolidationWorld) : Prop where
  forest : world.db.SupersessionForest
  seen : ∀ consolidation ∈ world.runs, ∀ known ∈ consolidation.listing.known,
    SeenUnsuperseded world.db known.1 known.2

/-- What a step does: the links grow or shrink, revisions stay sound, and runs
learn only about memories seen unsuperseded. -/
structure ConsolidationWorld.Steps (world next : ConsolidationWorld) : Prop where
  links : LinksChange world.db next.db
  sound : Sound world.db next.db
  seen : ∀ consolidation ∈ next.runs, ∀ known ∈ consolidation.listing.known,
    SeenUnsuperseded world.db known.1 known.2

omit [Host] in
/-- The snapshots that a merge is given were seen unsuperseded. -/
theorem ConsolidationWorld.Consistent.seen_snapshot {world : ConsolidationWorld}
    (consistent : world.Consistent) {index : Nat} {principal : String}
    {snapshots : List ConsolidationSnapshot} {snapshot : ConsolidationSnapshot}
    (present : world.runs[index]? = some ⟨principal, .listed snapshots⟩)
    (snapshotMem : snapshot ∈ snapshots) :
    SeenUnsuperseded world.db snapshot.memoryId snapshot.recordRevision :=
  consistent.seen _ (List.mem_of_getElem? present)
    (snapshot.memoryId, snapshot.recordRevision)
    (List.mem_map.mpr ⟨snapshot, snapshotMem, rfl⟩)

/-- A merge leaves every link, or links a member to an unsuperseded
representative with the same contexts. -/
theorem ConsolidationWorld.Consistent.merge_cases {world next : ConsolidationWorld}
    (consistent : world.Consistent) {index : Nat}
    {member representative : ConsolidationSnapshot} {audit : AuditDraft}
    (stepEq : consolidationStep world (.merge index member representative audit) = some next) :
    next.runs = world.runs ∧ Sound world.db next.db ∧
      (next.db.link = world.db.link ∨
        (MergedInto world.db next.db member.memoryId representative.memoryId ∧
          world.db.link representative.memoryId = some none)) := by
  simp only [consolidationStep] at stepEq
  split at stepEq
  · rename_i principal snapshots present
    split at stepEq
    · rename_i listed
      cases stepEq
      refine ⟨rfl, ?_⟩
      simp only [Db.commit]
      split
      · rename_i result ran
        refine ⟨withinSound_markSupersededIfUnchanged _ _ _ _ ran, ?_⟩
        rcases merged_of_markSupersededIfUnchanged ran with same | ⟨merged, row, found, revision⟩
        · exact Or.inl same
        · have seen := consistent.seen_snapshot present listed.2
          rw [← revision] at seen
          exact Or.inr ⟨merged, seen.link_eq found⟩
      · exact ⟨Std.Refl.refl _, Or.inl rfl⟩
    · cases stepEq
  · cases stepEq

omit [Host] in
/-- A run that learns nothing new stays within what was known. -/
theorem ConsolidationWorld.seen_advance {world : ConsolidationWorld} {index : Nat}
    {consolidation : ConsolidationRun} {listing : ConsolidationListing}
    {holds : MemoryId × Int → Prop}
    (seen : ∀ consolidation ∈ world.runs, ∀ known ∈ consolidation.listing.known, holds known)
    (present : world.runs[index]? = some consolidation)
    (subset : ∀ known ∈ listing.known, known ∈ consolidation.listing.known) :
    ∀ other ∈ (world.advance index consolidation listing).runs,
      ∀ known ∈ other.listing.known, holds known := by
  intro other otherMem known knownMem
  rcases List.mem_or_eq_of_mem_set otherMem with older | rfl
  · exact seen other older known knownMem
  · exact seen consolidation (List.mem_of_getElem? present) known (subset known knownMem)

/-- Every step of clients and runs. -/
theorem ConsolidationWorld.Consistent.steps {world next : ConsolidationWorld}
    (consistent : world.Consistent) {event : ConsolidationEvent}
    (stepEq : consolidationStep world event = some next) : world.Steps next := by
  cases event with
  | client call =>
      rw [consolidationStep] at stepEq
      split at stepEq
      · rename_i fromClient
        obtain ⟨db, dbStep, rfl⟩ := Option.map_eq_some_iff.mp stepEq
        exact ⟨storeStep_within (changes_body fromClient _ _) dbStep, storeStep_sound dbStep,
          consistent.seen⟩
      · cases stepEq
  | discover principal contextIds legacyContextIdsAny now limit =>
      cases stepEq
      refine ⟨Std.Refl.refl world.db, Std.Refl.refl world.db, ?_⟩
      intro consolidation consolidationMem known knownMem
      rcases List.mem_append.mp consolidationMem with older | newer
      · exact consistent.seen consolidation older known knownMem
      · cases List.mem_singleton.mp newer
        obtain ⟨row, candidate, rfl⟩ := List.mem_map.mp knownMem
        exact Db.seenUnsuperseded_of_candidate candidate
  | fetchVectors index =>
      simp only [consolidationStep] at stepEq
      split at stepEq
      · rename_i principal candidates present
        cases stepEq
        refine ⟨Std.Refl.refl world.db, Std.Refl.refl world.db, ?_⟩
        exact ConsolidationWorld.seen_advance consistent.seen present fun known knownMem =>
          (List.mem_filter.mp knownMem).1
      · cases stepEq
  | fetchMemberships index =>
      simp only [consolidationStep] at stepEq
      split at stepEq
      · rename_i principal candidates present
        cases stepEq
        refine ⟨Std.Refl.refl world.db, Std.Refl.refl world.db, ?_⟩
        refine ConsolidationWorld.seen_advance consistent.seen present fun known knownMem => ?_
        simpa [ConsolidationListing.known] using knownMem
      · cases stepEq
  | merge index member representative audit =>
      obtain ⟨sameRuns, sound, links⟩ := consistent.merge_cases stepEq
      refine ⟨Or.inl (Relation.ReflTransGen.single ?_), sound, ?_⟩
      · rcases links with same | ⟨merged, root⟩
        · exact .keep same
        · exact .mark _ _ merged.distinct merged.unmarked root merged.links
      · rw [sameRuns]
        exact consistent.seen

theorem ConsolidationWorld.Consistent.step {world next : ConsolidationWorld}
    (consistent : world.Consistent) {event : ConsolidationEvent}
    (stepEq : consolidationStep world event = some next) : next.Consistent := by
  have stepped := consistent.steps stepEq
  constructor
  · rcases stepped.links with grow | shrink
    · exact grow.forest consistent.forest
    · exact shrink.forest consistent.forest
  · intro consolidation consolidationMem known knownMem
    exact (stepped.seen consolidation consolidationMem known knownMem).later stepped.sound

/-! ## Runs -/

omit [Host] in
/-- A store without memories and without runs is consistent. -/
theorem ConsolidationWorld.Consistent.of_empty {world : ConsolidationWorld}
    (fresh : world.db.memories = Table.empty) (idle : world.runs = []) : world.Consistent := by
  have absent : ∀ id, world.db.link id = none := by
    intro id
    rw [Db.link, fresh]
    rfl
  refine ⟨⟨?_, ?_⟩, ?_⟩
  · intro id target linked
    rw [absent] at linked
    cases linked
  · intro id above
    refine not_above_of_parent_none ?_ above
    rw [Db.successor, absent]
    rfl
  · intro consolidation consolidationMem
    rw [idle] at consolidationMem
    cases consolidationMem

theorem consistent_run {start world : ConsolidationWorld} {events : List ConsolidationEvent}
    (consistent : start.Consistent) (runEq : run consolidationStep start events = some world) :
    world.Consistent :=
  run_invariant (fun _ _ _ held stepEq => held.step stepEq) consistent runEq

/-- Whatever clients and consolidation runs do, in every state reached from an
empty store every supersession link names a stored memory and following links
never comes back; the next step keeps each link unless its memory or the memory
it names is deleted; and a link that a merge adds joins two memories with the
same ordered contexts of which the representative is not superseded. -/
theorem supersession_forest {start world : ConsolidationWorld} {events : List ConsolidationEvent}
    (fresh : start.db.memories = Table.empty) (idle : start.runs = [])
    (runEq : run consolidationStep start events = some world) :
    (∀ id target, world.db.link id = some (some target) →
      world.db.memories.contains target = true) ∧
    (∀ id node early late, early < late → climb world.db.successor early id = some node →
      climb world.db.successor late id ≠ some node) ∧
    (∀ event next, consolidationStep world event = some next →
      LinksStable world.db next.db) ∧
    ∀ index member representative audit next,
      consolidationStep world (.merge index member representative audit) = some next →
      next.db.link ≠ world.db.link →
        (∀ other, next.db.link other = if other = member.memoryId
          then some (some representative.memoryId) else world.db.link other) ∧
        world.db.consolidationContextProfile member.memoryId =
          world.db.consolidationContextProfile representative.memoryId ∧
        world.db.link representative.memoryId = some none := by
  have consistent := consistent_run (.of_empty fresh idle) runEq
  refine ⟨?_, ?_, ?_, ?_⟩
  · intro id target linked
    have stored := consistent.forest.stored id target linked
    rw [ne_eq, Db.link_eq_none_iff] at stored
    rw [Table.contains, Option.isSome_iff_ne_none]
    exact stored
  · intro id node early late earlier climbed
    exact consistent.forest.acyclic.climb_ne earlier climbed
  · intro event next stepEq
    rcases (consistent.steps stepEq).links with grow | shrink
    · exact grow.stable
    · exact shrink.stable
  · intro index member representative audit next stepEq changed
    rcases (consistent.merge_cases stepEq).2.2 with same | ⟨merged, root⟩
    · exact absurd same changed
    · exact ⟨merged.links, merged.sameContexts, root⟩

/-- A client stores a memory and then another that supersedes it, and a
consolidation run lists its candidates. -/
def supersedingStores : List ConsolidationEvent :=
  let stored (id : MemoryId) (content : String) : MemoryWithEmbedding :=
    ⟨Memory.plain id "owner" content 0, none⟩
  [.client ⟨⟨3, none⟩, 0, .store (stored ⟨1⟩ "draft") none⟩,
    .client ⟨⟨3, none⟩, 0, .storeWithSupersession (stored ⟨2⟩ "final") ⟨1⟩ none⟩,
    .discover "owner" none none 0 10, .fetchVectors 0, .fetchMemberships 0]

omit [Host] in
theorem supersession_forest_superseded :
    ∃ world, @run _ _ (@consolidationStep asciiHost) ⟨Db.empty 3, []⟩ supersedingStores =
        some world ∧ world.db.link ⟨1⟩ = some (some ⟨2⟩) ∧
      world.db.memories.contains ⟨2⟩ = true ∧
      climb world.db.successor 1 ⟨1⟩ = some ⟨2⟩ ∧ climb world.db.successor 1 ⟨1⟩ ≠ some ⟨1⟩ := by
  have ran : ∃ world, @run _ _ (@consolidationStep asciiHost) ⟨Db.empty 3, []⟩
      supersedingStores = some world ∧ world.db.link ⟨1⟩ = some (some ⟨2⟩) :=
    ⟨_, rfl, rfl⟩
  obtain ⟨world, runEq, linked⟩ := ran
  have forest := @supersession_forest asciiHost _ _ _ rfl rfl runEq
  refine ⟨world, runEq, linked, forest.1 ⟨1⟩ ⟨2⟩ linked, ?_,
    forest.2.1 ⟨1⟩ ⟨1⟩ 0 1 (by decide) rfl⟩
  rw [climb, Db.successor_eq_some_iff.mpr linked]
  rfl

end LocalHold
