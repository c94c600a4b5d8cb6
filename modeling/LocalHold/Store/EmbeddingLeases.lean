import LocalHold.Store.LeaseEffects
import LocalHold.Store.AccessPredicates
import LocalHold.Store.Prefilter

/-!
# Exclusive leases of the re-embed queue

A granted claim leases a memory at its embedding revision.  Until the lease
expires nobody else is granted the same revision, unless the holder released it
or a reindex rebuilt every vector.
-/

namespace LocalHold

open Relational Transition Transition.Txn

variable [Host]

/-! ## Claims along a run -/

/-- The claims that a call is granted. -/
def StoreCall.granted (call : StoreCall) (db : Db) : List ReembedClaim :=
  match call.command with
  | .claimForReembed principal limit token =>
      match claimForReembed principal limit token call.now db with
      | .ok (claims, _) => claims
      | .error _ => []
  | _ => []

/-- A call of a run, with the state it finds. -/
structure CallAt (start : Db) (calls : List StoreCall) (position : Nat) (before : Db)
    (call : StoreCall) : Prop where
  reached : run storeStep start (calls.take position) = some before
  issued : calls[position]? = some call

omit [Host] in
/-- A call ends the lease of a claim: the holder releases it, or every vector is
rebuilt. -/
def StoreCall.Frees (call : StoreCall) (claim : ReembedClaim) (db : Db) : Prop :=
  match call.command with
  | .releaseEmbeddingClaim id revision token =>
      id = claim.id ∧ revision = claim.embeddingRevision ∧ token = claim.claimToken ∧
        ∃ next, releaseEmbeddingClaim id revision token db = .ok (true, next)
  | .reindexEmbeddings _ => True
  | _ => False

omit [Host] in
/-- The times of the calls never fall. -/
def Clocked (calls : List StoreCall) : Prop :=
  calls.Pairwise fun earlier later => earlier.now ≤ later.now

/-- Two claims for one memory at one revision, less than a lease apart, are
granted only when a call between them ended the first lease. -/
def ExclusiveLeases (start : Db) (calls : List StoreCall) : Prop :=
  ∀ {early late : Nat} {before later : Db} {firstCall secondCall : StoreCall}
    {first second : ReembedClaim}, early < late →
    CallAt start calls early before firstCall → CallAt start calls late later secondCall →
    first ∈ firstCall.granted before → second ∈ secondCall.granted later →
    first.id = second.id → first.embeddingRevision = second.embeddingRevision →
    secondCall.now - firstCall.now < embeddingClaimLease → FourDigitYear firstCall.now →
    ∃ position middle call, early < position ∧ position < late ∧
      CallAt start calls position middle call ∧ call.Frees first middle

/-- A release clears at most the lease that its token holds at its revision. -/
def StoreCall.ReleasesOwnLease (call : StoreCall) (before : Db) : Prop :=
  ∀ id revision token, call.command = .releaseEmbeddingClaim id revision token →
    ∀ next, storeStep before call = some next → ∀ other row,
      before.memories.find? other = some row → ∃ new, next.memories.find? other = some new ∧
        (new.lease = row.lease ∨ other = id ∧ row.embeddingRevision = revision ∧
          row.embeddingClaimToken = some token)

/-- A memory that a claim may take: it has no embedding and no live lease, and
the principal may write it. -/
def MemoryRow.Claimable (principal : Option String) (expiredBefore : Instant) (row : MemoryRow) :
    Prop :=
  row.hasEmbedding = 0 ∧ leaseExpired expiredBefore row = true ∧
    ∀ name ∈ principal, row.toMemory.hasWriteAccess name = true

/-- A batch of claims holds each memory once, as many claimable memories as the
limit allows, and the oldest of them. -/
structure OldestBatch (principal : Option String) (limit : Nat) (expiredBefore : Instant)
    (db : Db) (claims : List ReembedClaim) : Prop where
  distinct : (claims.map (·.id)).Nodup
  claimable : ∀ claim ∈ claims, ∃ row, db.memories.find? claim.id = some row ∧
    row.content = claim.content ∧ row.embeddingRevision = claim.embeddingRevision ∧
    row.Claimable principal expiredBefore
  atMost : claims.length ≤ limit
  full : claims.length < limit → ∀ row ∈ db.memories, row.Claimable principal expiredBefore →
    row.id ∈ claims.map (·.id)
  oldest : ∀ taken ∈ db.memories, taken.id ∈ claims.map (·.id) →
    ∀ left ∈ db.memories, left.Claimable principal expiredBefore →
    left.id ∉ claims.map (·.id) → FourDigitYear taken.createdAt → FourDigitYear left.createdAt →
    taken.createdAt ≤ left.createdAt

/-- The claims of a call are the oldest claimable memories. -/
def StoreCall.ClaimsOldest (call : StoreCall) (before : Db) : Prop :=
  ∀ principal limit token, call.command = .claimForReembed principal limit token →
    OldestBatch principal limit (call.now - embeddingClaimLease) before (call.granted before)

/-! ## Claims -/

theorem claimForReembed_eq (principal : Option String) (limit : Nat) (token : String)
    (now : Instant) (db : Db) :
    claimForReembed principal limit token now db =
      .ok ((db.reembedCandidates principal (now - embeddingClaimLease) limit).map fun row =>
          ⟨row.id, row.content, row.embeddingRevision, token⟩,
        { db with
          memories := db.memories.updateWhere
            (fun row => row.hasEmbedding == 0 &&
              leaseExpired (now - embeddingClaimLease) row &&
              (db.reembedCandidates principal (now - embeddingClaimLease) limit).any
                fun candidate => candidate.id == row.id &&
                  candidate.embeddingRevision == row.embeddingRevision)
            fun row =>
              { row with embeddingClaimedAt := some now, embeddingClaimToken := some token } }) :=
  rfl

omit [Host] in
theorem releaseEmbeddingClaim_eq (id : MemoryId) (revision : Int) (token : String) (db : Db) :
    releaseEmbeddingClaim id revision token db =
      .ok (match db.memories.find? id with
          | some row => row.hasEmbedding == 0 && row.embeddingRevision == revision &&
              row.embeddingClaimToken == some token
          | none => false,
        { db with
          memories := db.memories.updateWhere
            (fun row => decide (row.id = id) &&
              (row.hasEmbedding == 0 && row.embeddingRevision == revision &&
                row.embeddingClaimToken == some token))
            fun row => { row with embeddingClaimedAt := none, embeddingClaimToken := none } }) :=
  rfl

theorem mem_granted_iff {call : StoreCall} {db : Db} {claim : ReembedClaim} :
    claim ∈ call.granted db ↔ ∃ principal limit token,
      call.command = .claimForReembed principal limit token ∧
      ∃ row ∈ db.reembedCandidates principal (call.now - embeddingClaimLease) limit,
        claim = ⟨row.id, row.content, row.embeddingRevision, token⟩ := by
  unfold StoreCall.granted
  split
  case h_1 principal limit token command =>
    simp only [claimForReembed_eq, List.mem_map]
    constructor
    · rintro ⟨row, rowMem, rfl⟩
      exact ⟨principal, limit, token, command, row, rowMem, rfl⟩
    · rintro ⟨_, _, _, commandEq, row, rowMem, rfl⟩
      rw [command] at commandEq
      cases commandEq
      exact ⟨row, rowMem, rfl⟩
  case h_2 other =>
    constructor
    · intro claimMem
      cases claimMem
    · rintro ⟨principal, limit, token, commandEq, _⟩
      exact absurd commandEq (other principal limit token)

omit [Host] in
theorem hasWriteAccess_of_sqlWriteFilter {principal : Option String} {row : MemoryRow} :
    sqlWriteFilter principal row = true ↔
      ∀ name ∈ principal, row.toMemory.hasWriteAccess name = true := by
  rw [sqlWriteFilter_eq_accepts]
  cases principal with
  | none =>
      rw [reembedWriteCondition, Truth.accepts_disj]
      constructor
      · intro _ name absent
        cases absent
      · intro _
        rfl
  | some name =>
      rw [accepts_reembedWriteCondition]
      simp only [Option.mem_some_iff, forall_eq']
      rfl

/-- The filter of the claim statement. -/
theorem claimable_iff {principal : Option String} {expiredBefore : Instant} {row : MemoryRow} :
    (row.hasEmbedding == 0 && leaseExpired expiredBefore row && sqlWriteFilter principal row) =
      true ↔ row.Claimable principal expiredBefore := by
  rw [Bool.and_eq_true_iff, Bool.and_eq_true_iff, beq_iff_eq, hasWriteAccess_of_sqlWriteFilter,
    and_assoc]
  rfl

theorem mem_of_mem_reembedCandidates {db : Db} {principal : Option String}
    {expiredBefore : Instant} {limit : Nat} {row : MemoryRow}
    (candidate : row ∈ db.reembedCandidates principal expiredBefore limit) :
    row ∈ db.memories ∧ row.Claimable principal expiredBefore := by
  have selected := List.mem_mergeSort.mp (List.mem_of_mem_take candidate)
  obtain ⟨stored, passes⟩ := Table.mem_select_iff.mp selected
  exact ⟨stored, claimable_iff.mp passes⟩

/-! ## The oldest batch -/

theorem createdBefore_total (first second : MemoryRow) :
    (createdBefore first second || createdBefore second first) = true := by
  simp only [createdBefore, Bool.or_eq_true, Bool.and_eq_true, decide_eq_true_eq, beq_iff_eq]
  rcases lt_trichotomy (Host.toRfc3339 first.createdAt) (Host.toRfc3339 second.createdAt) with
    earlier | same | later
  · exact Or.inl (Or.inl earlier)
  · rcases le_total first.id.display second.id.display with le | le
    · exact Or.inl (Or.inr ⟨same, le⟩)
    · exact Or.inr (Or.inr ⟨same.symm, le⟩)
  · exact Or.inr (Or.inl later)

theorem createdBefore_trans (first second third : MemoryRow)
    (early : createdBefore first second = true) (late : createdBefore second third = true) :
    createdBefore first third = true := by
  simp only [createdBefore, Bool.or_eq_true, Bool.and_eq_true, decide_eq_true_eq,
    beq_iff_eq] at early late ⊢
  rcases early with before | ⟨same, le⟩
  · rcases late with beforeToo | ⟨sameToo, _⟩
    · exact Or.inl (before.trans beforeToo)
    · exact Or.inl (sameToo ▸ before)
  · rcases late with before | ⟨sameToo, leToo⟩
    · exact Or.inl (same ▸ before)
    · exact Or.inr ⟨same.trans sameToo, le.trans leToo⟩

theorem le_of_createdBefore (clock : ∀ instant, Host.toRfc3339 instant = rfc3339 instant)
    {first second : MemoryRow} (firstYear : FourDigitYear first.createdAt)
    (secondYear : FourDigitYear second.createdAt) (before : createdBefore first second = true) :
    first.createdAt ≤ second.createdAt := by
  have text : Host.toRfc3339 first.createdAt ≤ Host.toRfc3339 second.createdAt := by
    simp only [createdBefore, Bool.or_eq_true, Bool.and_eq_true, decide_eq_true_eq,
      beq_iff_eq] at before
    rcases before with earlier | ⟨same, _⟩
    · exact le_of_lt earlier
    · exact le_of_eq same
  rcases (toRfc3339_le_iff_or clock secondYear).mp text with le | late
  · exact le
  · exact absurd late firstYear.not_afterYear9999

/-- The claimable rows in the order of the statement. -/
def Db.claimableRows (db : Db) (principal : Option String) (expiredBefore : Instant) :
    List MemoryRow :=
  (db.memories.select fun row => row.hasEmbedding == 0 && leaseExpired expiredBefore row &&
    sqlWriteFilter principal row).mergeSort createdBefore

theorem Db.reembedCandidates_eq (db : Db) (principal : Option String) (expiredBefore : Instant)
    (limit : Nat) : db.reembedCandidates principal expiredBefore limit =
      (db.claimableRows principal expiredBefore).take limit :=
  rfl

theorem Db.mem_claimableRows_iff {db : Db} {principal : Option String} {expiredBefore : Instant}
    {row : MemoryRow} : row ∈ db.claimableRows principal expiredBefore ↔
      row ∈ db.memories ∧ row.Claimable principal expiredBefore := by
  rw [Db.claimableRows, List.mem_mergeSort, Table.mem_select_iff, claimable_iff]

theorem Db.pairwise_claimableRows (db : Db) (principal : Option String)
    (expiredBefore : Instant) : (db.claimableRows principal expiredBefore).Pairwise
      fun first second => createdBefore first second = true :=
  List.pairwise_mergeSort createdBefore_trans createdBefore_total _

theorem Db.nodup_ids_claimableRows (db : Db) (principal : Option String)
    (expiredBefore : Instant) :
    ((db.claimableRows principal expiredBefore).map (·.id)).Nodup := by
  rw [Db.claimableRows, ((List.mergeSort_perm _ _).map _).nodup_iff]
  exact db.memories.nodup.sublist (List.filter_sublist.map _)

theorem oldestBatch_claim (clock : ∀ instant, Host.toRfc3339 instant = rfc3339 instant) (db : Db)
    (principal : Option String) (expiredBefore : Instant) (limit : Nat) (token : String) :
    OldestBatch principal limit expiredBefore db
      ((db.reembedCandidates principal expiredBefore limit).map fun row =>
        ⟨row.id, row.content, row.embeddingRevision, token⟩) := by
  have ids : (((db.reembedCandidates principal expiredBefore limit).map fun row =>
      (⟨row.id, row.content, row.embeddingRevision, token⟩ : ReembedClaim)).map (·.id)) =
      ((db.claimableRows principal expiredBefore).take limit).map (·.id) := by
    rw [List.map_map]
    rfl
  refine ⟨?_, ?_, ?_, ?_, ?_⟩
  · rw [ids]
    exact (db.nodup_ids_claimableRows principal expiredBefore).sublist
      ((List.take_sublist _ _).map _)
  · intro claim claimMem
    obtain ⟨row, candidate, rfl⟩ := List.mem_map.mp claimMem
    obtain ⟨stored, claimable⟩ := mem_of_mem_reembedCandidates candidate
    exact ⟨row, Table.mem_iff_find?.mp stored, rfl, rfl, claimable⟩
  · rw [List.length_map, Db.reembedCandidates_eq]
    exact List.length_take_le _ _
  · intro short row stored claimable
    rw [List.length_map, Db.reembedCandidates_eq, List.length_take] at short
    have all : (db.claimableRows principal expiredBefore).length ≤ limit := by omega
    rw [ids, List.take_of_length_le all]
    exact List.mem_map_of_mem (Db.mem_claimableRows_iff.mpr ⟨stored, claimable⟩)
  · intro taken takenStored takenMem left leftStored claimable leftOut takenYear leftYear
    rw [ids] at takenMem leftOut
    obtain ⟨row, rowMem, sameId⟩ := List.mem_map.mp takenMem
    have rowStored := (Db.mem_claimableRows_iff.mp (List.mem_of_mem_take rowMem)).1
    have sameRow : row = taken := Table.eq_of_mem_of_key_eq rowStored takenStored sameId
    subst sameRow
    have leftLate : left ∈ (db.claimableRows principal expiredBefore).drop limit := by
      have leftMem := Db.mem_claimableRows_iff.mpr ⟨leftStored, claimable⟩
      rw [← List.take_append_drop limit (db.claimableRows principal expiredBefore),
        List.mem_append] at leftMem
      exact leftMem.resolve_left fun early => leftOut (List.mem_map_of_mem early)
    have ordered := db.pairwise_claimableRows principal expiredBefore
    rw [← List.take_append_drop limit (db.claimableRows principal expiredBefore),
      List.pairwise_append] at ordered
    exact le_of_createdBefore clock takenYear leftYear (ordered.2.2 row rowMem left leftLate)

/-! ## Held leases -/

omit [Host] in
/-- The row is past the revision of a claim, or embedded at it, or leased to the
claim since a time. -/
def MemoryRow.HeldBy (row : MemoryRow) (claim : ReembedClaim) (claimedAt : Instant) : Prop :=
  claim.embeddingRevision < row.embeddingRevision ∨
    (row.embeddingRevision = claim.embeddingRevision ∧
      (row.hasEmbedding = 1 ∨
        row.embeddingClaimedAt = some claimedAt ∧ row.embeddingClaimToken = some claim.claimToken))

omit [Host] in
/-- The memory of a claim is held by it, or gone for good. -/
structure Db.Leased (db : Db) (claim : ReembedClaim) (claimedAt : Instant) : Prop where
  held : ∀ row, db.memories.find? claim.id = some row → row.HeldBy claim claimedAt
  gone : db.memories.find? claim.id = none → db.tombstones.contains claim.id = true

omit [Host] in
theorem LeaseKept.heldBy {old new : MemoryRow} {claim : ReembedClaim} {claimedAt : Instant}
    (kept : LeaseKept old new) (held : old.HeldBy claim claimedAt) :
    new.HeldBy claim claimedAt := by
  rcases kept with rose | ⟨same, kept⟩
  · rcases held with later | ⟨here, _⟩
    · exact Or.inl (lt_trans later rose)
    · exact Or.inl (here ▸ rose)
  · rcases held with later | ⟨here, held⟩
    · exact Or.inl (same ▸ later)
    · refine Or.inr ⟨same ▸ here, ?_⟩
      rcases kept with embedded | lease
      · exact Or.inl embedded
      · have sameFlag : new.hasEmbedding = old.hasEmbedding := congrArg Lease.hasEmbedding lease
        have sameTime : new.embeddingClaimedAt = old.embeddingClaimedAt :=
          congrArg Lease.claimedAt lease
        have sameToken : new.embeddingClaimToken = old.embeddingClaimToken :=
          congrArg Lease.token lease
        rw [sameFlag, sameTime, sameToken]
        exact held

omit [Host] in
/-- A change of rows that keeps the memories keeps a lease where it keeps the
held rows. -/
theorem Db.Leased.updateWhere {db : Db} {claim : ReembedClaim} {claimedAt : Instant}
    (leased : db.Leased claim claimedAt) {next : Db} {hit : MemoryRow → Bool}
    {change : MemoryRow → MemoryRow} (keepsKey : ∀ row, (change row).id = row.id)
    (memories : next.memories = db.memories.updateWhere hit change keepsKey)
    (tombstones : next.tombstones = db.tombstones)
    (keeps : ∀ row, db.memories.find? claim.id = some row → row.HeldBy claim claimedAt →
      hit row = true → (change row).HeldBy claim claimedAt) : next.Leased claim claimedAt where
  held row found := by
    rw [memories, Table.find?_updateWhere] at found
    obtain ⟨old, oldFound, rfl⟩ := Option.map_eq_some_iff.mp found
    have held := leased.held old oldFound
    split
    case isTrue hits => exact keeps old oldFound held hits
    case isFalse => exact held
  gone absent := by
    rw [memories, Table.find?_updateWhere, Option.map_eq_none_iff] at absent
    rw [tombstones]
    exact leased.gone absent

/-- A lease that has not expired hides its row from claims. -/
theorem leaseExpired_eq_false (clock : ∀ instant, Host.toRfc3339 instant = rfc3339 instant)
    {row : MemoryRow} {claimedAt expiredBefore : Instant}
    (claimed : row.embeddingClaimedAt = some claimedAt) (live : expiredBefore < claimedAt)
    (fourDigit : FourDigitYear claimedAt) : leaseExpired expiredBefore row = false := by
  have lateText : Host.toRfc3339 expiredBefore < Host.toRfc3339 claimedAt :=
    (toRfc3339_lt_iff_or clock fourDigit).mpr (Or.inl live)
  simp only [leaseExpired, claimed, Option.all_some, decide_eq_false_iff_not, not_le]
  exact lateText

/-- A live lease outlasts every step but a release by its holder and a
reindex. -/
theorem Db.Leased.step (clock : ∀ instant, Host.toRfc3339 instant = rfc3339 instant)
    {db next : Db} {call : StoreCall} {claim : ReembedClaim} {claimedAt : Instant}
    (leased : db.Leased claim claimedAt) (live : call.now - embeddingClaimLease < claimedAt)
    (fourDigit : FourDigitYear claimedAt) (stepEq : storeStep db call = some next) :
    call.Frees claim db ∨ next.Leased claim claimedAt := by
  have sound := storeStep_sound stepEq claim.id
  cases moves : call.command.movesLeases with
  | false =>
      have stay := storeStep_leasesStay moves stepEq
      refine Or.inr ⟨fun row found => ?_, fun absent => ?_⟩
      · cases oldFound : db.memories.find? claim.id with
        | none =>
            have untouched := sound.fresh (Db.view_eq_none_iff.mpr oldFound)
              fun gone => by rw [Db.view_eq_none_iff.mp gone] at found; cases found
            rw [leased.gone oldFound] at untouched
            cases untouched
        | some old => exact (stay _ old row oldFound found).heldBy (leased.held old oldFound)
      · cases oldFound : db.memories.find? claim.id with
        | none => exact sound.tombstone (leased.gone oldFound)
        | some old =>
            refine sound.gone (fun gone => ?_) (Db.view_eq_none_iff.mpr absent)
            rw [Db.view_eq_none_iff.mp gone] at oldFound
            cases oldFound
  | true =>
      obtain ⟨handle, now, command⟩ := call
      cases command with
      | claimForReembed principal limit token =>
          rcases storeStep_cases rfl stepEq with rfl | ⟨value, ran⟩
          · exact Or.inr leased
          · rw [claimForReembed_eq] at ran
            cases ran
            refine Or.inr (leased.updateWhere (by intro _; rfl) rfl rfl fun row _ held hits => ?_)
            simp only [Bool.and_eq_true, beq_iff_eq] at hits
            rcases held with later | ⟨here, embedded | ⟨claimed, _⟩⟩
            · exact Or.inl later
            · rw [hits.1.1] at embedded
              cases embedded
            · rw [leaseExpired_eq_false clock claimed live fourDigit] at hits
              cases hits.1.2
      | releaseEmbeddingClaim id revision token =>
          rcases storeStep_cases rfl stepEq with rfl | ⟨value, ran⟩
          · exact Or.inr leased
          · have released := ran
            rw [releaseEmbeddingClaim_eq] at ran
            cases ran
            by_cases frees : StoreCall.Frees ⟨handle, now, .releaseEmbeddingClaim id revision token⟩
              claim db
            · exact Or.inl frees
            refine Or.inr (leased.updateWhere (by intro _; rfl) rfl rfl
              fun row found held hits => ?_)
            simp only [Bool.and_eq_true, decide_eq_true_eq, beq_iff_eq] at hits
            obtain ⟨rowId, ⟨flag, rowRevision⟩, rowToken⟩ := hits
            rcases held with later | ⟨here, embedded | ⟨_, heldToken⟩⟩
            · exact Or.inl later
            · rw [flag] at embedded
              cases embedded
            · have present : db.memories.find? id = some row := by
                rw [← rowId, Table.find?_key found]
                exact found
              simp only [present, flag, rowRevision, rowToken, beq_self_eq_true, Bool.and_self]
                at released
              exact absurd ⟨rowId.symm.trans (Table.find?_key found),
                rowRevision.symm.trans here, Option.some.inj (rowToken.symm.trans heldToken),
                _, released⟩ frees
      | reindexEmbeddings profile => exact Or.inl trivial
      | _ => cases moves

/-- A granted claim leases its memory from the time of the call. -/
theorem leased_of_granted {db next : Db} {call : StoreCall} {claim : ReembedClaim}
    (granted : claim ∈ call.granted db) (stepEq : storeStep db call = some next) :
    next.Leased claim call.now := by
  obtain ⟨handle, now, command⟩ := call
  obtain ⟨principal, limit, token, commandEq, row, candidate, rfl⟩ := mem_granted_iff.mp granted
  dsimp only at commandEq candidate
  subst commandEq
  obtain ⟨stored, flag, expired, _⟩ := mem_of_mem_reembedCandidates candidate
  have found := Table.mem_iff_find?.mp stored
  rw [storeStep_of_ok rfl rfl (claimForReembed_eq principal limit token now db)] at stepEq
  cases stepEq
  have chosen : ((db.reembedCandidates principal (now - embeddingClaimLease) limit).any
      fun candidate => candidate.id == row.id &&
        candidate.embeddingRevision == row.embeddingRevision) = true :=
    List.any_eq_true.mpr ⟨row, candidate, by simp⟩
  refine ⟨fun claimed claimedFound => ?_, fun absent => ?_⟩
  · dsimp only at claimedFound
    rw [Table.find?_updateWhere, found, Option.map_some, if_pos (by simp [flag, expired, chosen])]
      at claimedFound
    cases claimedFound
    exact Or.inr ⟨rfl, Or.inr ⟨rfl, rfl⟩⟩
  · dsimp only at absent
    rw [Table.find?_updateWhere, found] at absent
    cases absent

omit [Host] in
theorem Clocked.le {calls : List StoreCall} (clocked : Clocked calls) {early late : Nat}
    {first second : StoreCall} (lt : early < late) (firstAt : calls[early]? = some first)
    (secondAt : calls[late]? = some second) : first.now ≤ second.now := by
  obtain ⟨earlyBound, rfl⟩ := List.getElem?_eq_some_iff.mp firstAt
  obtain ⟨lateBound, rfl⟩ := List.getElem?_eq_some_iff.mp secondAt
  exact List.pairwise_iff_getElem.mp clocked early late earlyBound lateBound lt

theorem CallAt.step {start before next : Db} {calls : List StoreCall} {position : Nat}
    {call : StoreCall} (callAt : CallAt start calls position before call)
    (reached : run storeStep start (calls.take (position + 1)) = some next) :
    storeStep before call = some next := by
  rw [List.take_add_one, callAt.issued, Option.toList_some] at reached
  obtain ⟨middle, early, last⟩ := run_append_eq_some_iff.mp reached
  rw [callAt.reached] at early
  cases early
  obtain ⟨_, stepEq, done⟩ := run_cons_eq_some_iff.mp last
  cases done
  exact stepEq

/-- A live lease lasts up to a later position unless a call frees it. -/
theorem leased_until (clock : ∀ instant, Host.toRfc3339 instant = rfc3339 instant) {start : Db}
    {calls : List StoreCall} {claim : ReembedClaim} {claimedAt : Instant}
    (fourDigit : FourDigitYear claimedAt) {early late : Nat} (bound : late ≤ calls.length)
    (live : ∀ position call, early ≤ position → position < late → calls[position]? = some call →
      call.now - embeddingClaimLease < claimedAt)
    (kept : ∀ position middle call, early ≤ position → position < late →
      CallAt start calls position middle call → ¬ call.Frees claim middle)
    (leased : ∀ db, run storeStep start (calls.take early) = some db → db.Leased claim claimedAt)
    (offset : Nat) : early + offset ≤ late → ∀ db,
      run storeStep start (calls.take (early + offset)) = some db → db.Leased claim claimedAt := by
  induction offset with
  | zero => exact fun _ => leased
  | succ offset inductionHypothesis =>
      intro inside next reached
      have position : early + offset < calls.length := by omega
      have issued := List.getElem?_eq_getElem position
      obtain ⟨before, beforeRun⟩ : ∃ before,
          run storeStep start (calls.take (early + offset)) = some before := by
        rw [← Nat.add_assoc, List.take_add_one] at reached
        obtain ⟨before, beforeRun, _⟩ := run_append_eq_some_iff.mp reached
        exact ⟨before, beforeRun⟩
      have callAt : CallAt start calls (early + offset) before _ := ⟨beforeRun, issued⟩
      have held := inductionHypothesis (by omega) before beforeRun
      have isLive := live (early + offset) _ (by omega) (by omega) issued
      rcases held.step clock isLive fourDigit (callAt.step reached) with frees | held
      · exact absurd frees (kept (early + offset) before _ (by omega) (by omega) callAt)
      · exact held

theorem exclusiveLeases (clock : ∀ instant, Host.toRfc3339 instant = rfc3339 instant) {start : Db}
    {calls : List StoreCall} (clocked : Clocked calls) : ExclusiveLeases start calls := by
  intro early late before later firstCall secondCall first second lt firstAt secondAt firstGranted
    secondGranted sameId sameRevision close fourDigit
  by_contra noneFrees
  obtain ⟨lateBound, _⟩ := List.getElem?_eq_some_iff.mp secondAt.issued
  have live : ∀ position call, early + 1 ≤ position → position < late →
      calls[position]? = some call → call.now - embeddingClaimLease < firstCall.now := by
    intro position call _ before issued
    have notLater := clocked.le before issued secondAt.issued
    exact lt_of_le_of_lt (Int.sub_le_sub_right notLater _) (Int.sub_lt_of_sub_lt close)
  have kept : ∀ position middle call, early + 1 ≤ position → position < late →
      CallAt start calls position middle call → ¬ call.Frees first middle := by
    intro position middle call after before callAt frees
    exact noneFrees ⟨position, middle, call, after, before, callAt, frees⟩
  have leased := leased_until clock fourDigit (Nat.le_of_lt lateBound) live kept
    (fun db reached => leased_of_granted firstGranted (firstAt.step reached)) (late - (early + 1))
    (by omega) later (by rw [Nat.add_sub_cancel' lt]; exact secondAt.reached)
  obtain ⟨principal, limit, token, _, row, candidate, rfl⟩ := mem_granted_iff.mp secondGranted
  obtain ⟨stored, flag, expired, _⟩ := mem_of_mem_reembedCandidates candidate
  dsimp only at sameId sameRevision
  rcases leased.held row (sameId ▸ Table.mem_iff_find?.mp stored) with
    laterRevision | ⟨_, embedded | ⟨claimed, _⟩⟩
  · exact absurd laterRevision (sameRevision ▸ lt_irrefl _)
  · rw [flag] at embedded
    cases embedded
  · rw [leaseExpired_eq_false clock claimed (Int.sub_lt_of_sub_lt close) fourDigit] at expired
    cases expired

theorem releasesOwnLease (call : StoreCall) (before : Db) : call.ReleasesOwnLease before := by
  intro id revision token commandEq next stepEq other row found
  obtain ⟨handle, now, command⟩ := call
  dsimp only at commandEq
  subst commandEq
  rw [storeStep_of_ok rfl rfl (releaseEmbeddingClaim_eq id revision token before)] at stepEq
  cases stepEq
  dsimp only
  rw [Table.find?_updateWhere, found, Option.map_some]
  refine ⟨_, rfl, ?_⟩
  split
  case isTrue hits =>
    simp only [Bool.and_eq_true, decide_eq_true_eq, beq_iff_eq] at hits
    exact Or.inr ⟨(Table.find?_key found).symm.trans hits.1, hits.2.1.2, hits.2.2⟩
  case isFalse => exact Or.inl rfl

theorem claimsOldest (clock : ∀ instant, Host.toRfc3339 instant = rfc3339 instant)
    (call : StoreCall) (before : Db) : call.ClaimsOldest before := by
  intro principal limit token commandEq
  have granted : call.granted before =
      (before.reembedCandidates principal (call.now - embeddingClaimLease) limit).map fun row =>
        ⟨row.id, row.content, row.embeddingRevision, token⟩ := by
    simp only [StoreCall.granted, commandEq, claimForReembed_eq]
  rw [granted]
  exact oldestBatch_claim clock before principal _ limit token

/-- In every run with a clock that never falls, leases exclude each other,
releases clear the lease of their own token only, and every batch of claims
holds the oldest claimable memories. -/
theorem reembed_leases (clock : ∀ instant, Host.toRfc3339 instant = rfc3339 instant)
    (start : Db) {calls : List StoreCall} (clocked : Clocked calls) :
    ExclusiveLeases start calls ∧ ∀ position before call,
      CallAt start calls position before call →
        call.ReleasesOwnLease before ∧ call.ClaimsOldest before :=
  ⟨exclusiveLeases clock clocked, fun _ before call _ =>
    ⟨releasesOwnLease call before, claimsOldest clock call before⟩⟩

/-! ## Leases that end -/

/-- A store with one memory that waits for its embedding. -/
def queuedStore : Db :=
  (@storeStep asciiHost (Db.empty 1) ⟨⟨1, none⟩, 0,
    .store ⟨Memory.plain ⟨1⟩ "agent" "text" 0, none⟩ none⟩).getD (Db.empty 1)

/-- A claim of the queue at a time. -/
def queueClaim (now : Instant) (token : String) : StoreCall :=
  ⟨⟨1, none⟩, now, .claimForReembed none 8 token⟩

/-- The claim of that memory. -/
def queuedClaim (token : String) : ReembedClaim :=
  ⟨⟨1⟩, "text", 0, token⟩

/-- The first holder gives the memory back. -/
def releasedLease : List StoreCall :=
  [queueClaim 1 "first", ⟨⟨1, none⟩, 2, .releaseEmbeddingClaim ⟨1⟩ 0 "first"⟩,
    queueClaim 3 "second"]

omit [Host] in
theorem reembed_leases_released :
    ∃ later, @CallAt asciiHost queuedStore releasedLease 2 later (queueClaim 3 "second") ∧
      @StoreCall.granted asciiHost (queueClaim 3 "second") later = [queuedClaim "second"] ∧
      ∃ position middle call, 0 < position ∧ position < 2 ∧
        @CallAt asciiHost queuedStore releasedLease position middle call ∧
        call.Frees (queuedClaim "first") middle := by
  have first : @StoreCall.granted asciiHost (queueClaim 1 "first") queuedStore =
      [queuedClaim "first"] := by decide +kernel
  have second : ∃ later, @CallAt asciiHost queuedStore releasedLease 2 later
      (queueClaim 3 "second") ∧
      @StoreCall.granted asciiHost (queueClaim 3 "second") later = [queuedClaim "second"] :=
    ⟨_, @CallAt.mk asciiHost _ _ _ _ _ rfl rfl, by decide +kernel⟩
  obtain ⟨later, secondAt, secondGranted⟩ := second
  have clocked : Clocked releasedLease := by
    simp [Clocked, releasedLease, queueClaim]
  have firstMem : queuedClaim "first" ∈
      @StoreCall.granted asciiHost (queueClaim 1 "first") queuedStore := by
    rw [first]
    exact List.mem_singleton.mpr rfl
  have secondMem : queuedClaim "second" ∈
      @StoreCall.granted asciiHost (queueClaim 3 "second") later := by
    rw [secondGranted]
    exact List.mem_singleton.mpr rfl
  refine ⟨later, secondAt, secondGranted, ?_⟩
  exact (@reembed_leases asciiHost (fun _ => rfl) queuedStore releasedLease clocked).1 (by decide)
    (@CallAt.mk asciiHost _ _ _ _ _ rfl rfl) secondAt firstMem secondMem rfl rfl (by decide)
    (by decide +kernel)

/-- A reindex while the memory is being embedded. -/
def rebuiltQueue : List StoreCall :=
  [queueClaim 1 "first", ⟨⟨1, none⟩, 2, .reindexEmbeddings ⟨"p", "e", "m", 1⟩⟩,
    queueClaim 3 "second"]

/-- Two claims one second apart, just after the year 9999. -/
def claimsAfter9999 : List StoreCall :=
  [queueClaim (253402300801 * 1000000000) "first", queueClaim (253402300802 * 1000000000) "second"]

omit [Host] in
/-- A reindex frees a leased memory that was never embedded, and past the year
9999 leases end at once. -/
theorem leases_end_without_release :
    (Clocked rebuiltQueue ∧
      @StoreCall.granted asciiHost (queueClaim 1 "first") queuedStore = [queuedClaim "first"] ∧
      ∃ leased cleared, @run _ _ (@storeStep asciiHost) queuedStore (rebuiltQueue.take 1) =
          some leased ∧
        @run _ _ (@storeStep asciiHost) queuedStore (rebuiltQueue.take 2) = some cleared ∧
        (leased.memories.rows.all fun row => row.hasEmbedding == 0) = true ∧
        @StoreCall.granted asciiHost (queueClaim 3 "second") cleared = [queuedClaim "second"]) ∧
    Clocked claimsAfter9999 ∧
      @StoreCall.granted asciiHost (queueClaim (253402300801 * 1000000000) "first") queuedStore =
        [queuedClaim "first"] ∧
      ∃ leased, @run _ _ (@storeStep asciiHost) queuedStore (claimsAfter9999.take 1) =
          some leased ∧
        @StoreCall.granted asciiHost (queueClaim (253402300802 * 1000000000) "second") leased =
          [queuedClaim "second"] := by
  refine ⟨⟨?_, by decide +kernel, _, _, rfl, rfl, by decide +kernel, by decide +kernel⟩, ?_,
    by decide +kernel, _, rfl, by decide +kernel⟩
  · simp [Clocked, rebuiltQueue, queueClaim]
  · simp [Clocked, claimsAfter9999, queueClaim]

end LocalHold
