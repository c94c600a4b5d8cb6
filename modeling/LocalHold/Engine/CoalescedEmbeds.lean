import LocalHold.Engine.Coalescing
import LocalHold.Transition.Run
import LocalHold.Transition.Workers

/-!
# One embed for each key

A step takes a key, tracks a claim, drops one of them, or moves embeds from one
phase to another.  In every run a key in flight has exactly one embed that holds it,
and a tracked claim has an embed that has not ended.
-/

namespace LocalHold

open Transition

/-! ## What a step can do -/

/-- What a step of a call does to the shared sets and to its embeds. -/
inductive EmbedCall.Effect (sets : EmbedSets) (call : EmbedCall) :
    EmbedSets → EmbedCall → Option EmbedCall → Prop
  /-- The embeds change their place, and some of them go to a new task. -/
  | moves {next : EmbedCall} {spawned : Option EmbedCall}
      (closing : next.phase.closing = call.phase.closing)
      (held : next.phase.held ++ spawned.toList.flatMap (·.phase.held) = call.phase.held) :
      Effect sets call sets next spawned
  /-- A key is taken. -/
  | takes {next : EmbedCall} {work : EmbedWork} (free : work.key ∉ sets.inflightEmbeds)
      (closing : next.phase.closing = call.phase.closing)
      (held : next.phase.held = ⟨work, none⟩ :: call.phase.held) :
      Effect sets call
        { sets with inflightEmbeds := insert work.key sets.inflightEmbeds } next none
  /-- The claim of an embed is tracked. -/
  | tracks {next : EmbedCall} {work : EmbedWork} {others : List TrackedEmbedWork}
      (closing : next.phase.closing = call.phase.closing)
      (before : call.phase.held = ⟨work, none⟩ :: others)
      (after : next.phase.held = others ++ [⟨work, work.activeClaim⟩]) :
      Effect sets call (sets.trackActiveClaim work.activeClaim) next none
  /-- The key of an embed is dropped. -/
  | dropsKey {next : EmbedCall} {item : TrackedEmbedWork}
      (closing : call.phase.closing = none) (opened : next.phase.closing = some item)
      (held : call.phase.held = item :: next.phase.held) :
      Effect sets call (sets.dropInflightEmbed item.work.key) next none
  /-- The claim of an embed is dropped. -/
  | dropsClaim {next : EmbedCall} {item : TrackedEmbedWork}
      (closing : call.phase.closing = some item) (closed : next.phase.closing = none)
      (held : next.phase.held = call.phase.held) :
      Effect sets call (sets.dropActiveClaim item.activeClaim) next none

/-- A drop that cannot go on is complete. -/
theorem Dropping.eq_of_step_eq_none {sets : EmbedSets} {dropping : Dropping}
    (stepEq : dropping.step sets = none) : dropping = ⟨none, []⟩ := by
  obtain ⟨_ | _, _ | _⟩ := dropping
  · rfl
  all_goals cases stepEq

/-- A drop goes on in the same way wherever it is. -/
theorem Dropping.step_effect {sets moved : EmbedSets} {call next : EmbedCall}
    {dropping rest : Dropping} (stepEq : dropping.step sets = some (moved, rest))
    (closing : call.phase.closing = dropping.current) (held : call.phase.held = dropping.behind)
    (closing' : next.phase.closing = rest.current) (held' : next.phase.held = rest.behind) :
    call.Effect sets moved next none := by
  obtain ⟨current, behind⟩ := dropping
  cases current with
  | some item =>
      cases stepEq
      exact .dropsClaim closing closing' (held'.trans held.symm)
  | none =>
      cases behind with
      | nil => cases stepEq
      | cons item behind =>
          cases stepEq
          exact .dropsKey closing closing' (by rw [held, held'])

theorem EmbedCall.step_effect {sets moved : EmbedSets} {call next : EmbedCall}
    {spawned : Option EmbedCall} (stepEq : call.step sets = some (moved, next, spawned)) :
    call.Effect sets moved next spawned := by
  obtain ⟨phase, later, rejectedSpawn⟩ := call
  cases phase with
  | idle =>
      cases later with
      | nil => cases stepEq
      | cons chunk later =>
          cases stepEq
          exact .moves rfl rfl
  | preparing again todo tracked =>
      cases todo with
      | nil =>
          rw [step] at stepEq
          dsimp only at stepEq
          split at stepEq
          · next empty =>
              cases stepEq
              exact .moves rfl (List.isEmpty_iff.mp empty).symm
          · split at stepEq
            · cases stepEq
              exact .moves rfl (List.append_nil _)
            · cases stepEq
              exact .moves rfl (List.append_nil _)
      | cons work todo =>
          rw [step] at stepEq
          dsimp only at stepEq
          split at stepEq
          · cases stepEq
            exact .moves rfl (List.append_nil _)
          · next taken takenEq =>
              cases stepEq
              rw [EmbedSets.beginInflightEmbed] at takenEq
              split at takenEq
              · cases takenEq
              · next free =>
                  cases takenEq
                  exact .takes free rfl rfl
  | tracking again work todo tracked =>
      cases stepEq
      exact .tracks rfl rfl rfl
  | spawning tracked =>
      rw [step] at stepEq
      dsimp only at stepEq
      split at stepEq
      · cases stepEq
        exact .moves rfl (List.append_nil _)
      · cases stepEq
        exact .moves rfl (List.append_nil _)
  | refused dropping accepted =>
      rw [step] at stepEq
      dsimp only at stepEq
      split at stepEq
      · next dropped rest dropEq =>
          cases stepEq
          exact Dropping.step_effect dropEq rfl rfl rfl rfl
      · next dropEq =>
          cases Dropping.eq_of_step_eq_none dropEq
          split at stepEq
          · cases stepEq
            exact .moves rfl rfl
          · cases stepEq
            exact .moves rfl rfl
  | queued tracked =>
      cases stepEq
      exact .moves rfl (List.append_nil _)
  | running inline tracked =>
      cases tracked with
      | nil =>
          cases stepEq
          exact .moves rfl rfl
      | cons item tracked =>
          cases stepEq
          exact .dropsKey rfl rfl rfl
  | settling inline done tracked =>
      cases stepEq
      exact .dropsClaim rfl rfl rfl
  | stopping dropping =>
      rw [step] at stepEq
      dsimp only at stepEq
      split at stepEq
      · next dropped rest dropEq =>
          cases stepEq
          exact Dropping.step_effect dropEq rfl rfl rfl rfl
      · next dropEq =>
          cases Dropping.eq_of_step_eq_none dropEq
          cases stepEq
          exact .moves rfl rfl

/-! ## One holder for each key -/

section Holders

variable {sets moved : EmbedSets} {call next : EmbedCall} {spawned : Option EmbedCall}
  {key : EmbedKey}

/-- How often a key is in flight. -/
def EmbedSets.occupied (sets : EmbedSets) (key : EmbedKey) : Nat :=
  if key ∈ sets.inflightEmbeds then 1 else 0

theorem EmbedSets.occupied_insert {other : EmbedKey} (free : other ∉ sets.inflightEmbeds) :
    EmbedSets.occupied { sets with inflightEmbeds := insert other sets.inflightEmbeds } key =
      sets.occupied key + if other = key then 1 else 0 := by
  by_cases same : other = key
  · rw [same] at free ⊢
    rw [occupied, occupied, if_pos (Finset.mem_insert_self _ _), if_neg free, if_pos rfl]
  · rw [occupied, occupied, if_neg same]
    simp [Ne.symm same]

theorem EmbedSets.occupied_dropInflightEmbed {other : EmbedKey}
    (held : (if other = key then 1 else 0) ≤ sets.occupied key) :
    (sets.dropInflightEmbed other).occupied key + (if other = key then 1 else 0) =
      sets.occupied key := by
  by_cases same : other = key
  · rw [if_pos same] at held ⊢
    rw [occupied] at held
    split at held
    · next inside =>
        rw [occupied, occupied, dropInflightEmbed, if_pos inside, same]
        simp
    · omega
  · rw [if_neg same, occupied, occupied, dropInflightEmbed]
    simp [Ne.symm same]

theorem EmbedSets.occupied_trackActiveClaim (claim : Option ActiveEmbedClaim) :
    (sets.trackActiveClaim claim).occupied key = sets.occupied key := by
  cases claim with
  | none => rfl
  | some => rfl

theorem EmbedSets.occupied_dropActiveClaim (claim : Option ActiveEmbedClaim) :
    (sets.dropActiveClaim claim).occupied key = sets.occupied key := by
  cases claim with
  | none => rfl
  | some => rfl

/-- The item has a key. -/
def TrackedEmbedWork.hasKey (key : EmbedKey) (item : TrackedEmbedWork) : Bool :=
  item.work.key = key

/-- The embeds of a call that hold a key. -/
def EmbedCall.holders (key : EmbedKey) (call : EmbedCall) : Nat :=
  call.phase.held.countP (TrackedEmbedWork.hasKey key)

theorem EmbedPhase.countP_live (phase : EmbedPhase) :
    phase.live.countP (LiveEmbed.holds key) =
      phase.held.countP (TrackedEmbedWork.hasKey key) := by
  have open' : phase.stage ≠ .closing := by
    cases phase with
    | running inline | settling inline => cases inline <;> exact nofun
    | _ => exact nofun
  have none : (phase.closing.toList.map (LiveEmbed.mk .closing)).countP (LiveEmbed.holds key) =
      0 := by
    rw [List.countP_map, List.countP_eq_zero]
    rintro item - has
    cases has
  rw [live, List.countP_append, none, Nat.zero_add, List.countP_map]
  congr 1
  funext item
  simp [LiveEmbed.holds, TrackedEmbedWork.hasKey, open']

theorem countP_hasKey_cons (item : TrackedEmbedWork) (tracked : List TrackedEmbedWork) :
    (item :: tracked).countP (TrackedEmbedWork.hasKey key) =
      tracked.countP (TrackedEmbedWork.hasKey key) + if item.work.key = key then 1 else 0 := by
  rw [List.countP_cons]
  simp [TrackedEmbedWork.hasKey]

/-- A step moves the holders of a key as it moves the key. -/
theorem EmbedCall.Effect.holders (effect : call.Effect sets moved next spawned)
    (held : call.holders key ≤ sets.occupied key) :
    next.holders key + (spawned.toList.map (EmbedCall.holders key)).sum + sets.occupied key =
      call.holders key + moved.occupied key := by
  cases effect with
  | moves closing same =>
      rw [EmbedCall.holders, EmbedCall.holders, ← same, List.countP_append, List.countP_flatMap]
      rfl
  | takes free closing same =>
      rw [EmbedCall.holders, EmbedCall.holders, same, countP_hasKey_cons,
        EmbedSets.occupied_insert free, Option.toList_none, List.map_nil, List.sum_nil]
      dsimp only
      omega
  | tracks closing before after =>
      rw [EmbedCall.holders, EmbedCall.holders, before, after, List.countP_append,
        countP_hasKey_cons, countP_hasKey_cons, List.countP_nil,
        EmbedSets.occupied_trackActiveClaim, Option.toList_none, List.map_nil, List.sum_nil]
      dsimp only
      omega
  | dropsKey closing opened same =>
      rw [EmbedCall.holders, same, countP_hasKey_cons] at held
      have drops := EmbedSets.occupied_dropInflightEmbed
        (Nat.le_trans (Nat.le_add_left _ _) held)
      rw [EmbedCall.holders, EmbedCall.holders, same, countP_hasKey_cons, Option.toList_none,
        List.map_nil, List.sum_nil]
      omega
  | dropsClaim closing closed same =>
      rw [EmbedCall.holders, EmbedCall.holders, same, EmbedSets.occupied_dropActiveClaim]
      rfl

end Holders

/-! ## An embed behind each claim -/

section Claims

variable {sets moved : EmbedSets} {call next : EmbedCall} {spawned : Option EmbedCall}
  {claim : ActiveEmbedClaim}

/-- Some embed of the call that has not ended has the claim. -/
def EmbedCall.Tracks (claim : ActiveEmbedClaim) (call : EmbedCall) : Prop :=
  ∃ item ∈ call.phase.closing.toList ++ call.phase.held, item.activeClaim = some claim

theorem EmbedCall.Tracks.exists_live (tracks : call.Tracks claim) :
    ∃ embed ∈ call.phase.live, embed.tracked.activeClaim = some claim := by
  obtain ⟨item, itemMem, has⟩ := tracks
  rcases List.mem_append.mp itemMem with closing | held
  · exact ⟨_, List.mem_append_left _ (List.mem_map_of_mem closing), has⟩
  · exact ⟨_, List.mem_append_right _ (List.mem_map_of_mem held), has⟩

theorem EmbedSets.mem_dropActiveClaim {dropped : Option ActiveEmbedClaim} :
    claim ∈ (sets.dropActiveClaim dropped).activeClaimedEmbeds ↔
      some claim ≠ dropped ∧ claim ∈ sets.activeClaimedEmbeds := by
  cases dropped with
  | none => simp [dropActiveClaim]
  | some other => simp [dropActiveClaim]

theorem EmbedSets.mem_trackActiveClaim {added : Option ActiveEmbedClaim} :
    claim ∈ (sets.trackActiveClaim added).activeClaimedEmbeds ↔
      some claim = added ∨ claim ∈ sets.activeClaimedEmbeds := by
  cases added with
  | none => simp [trackActiveClaim]
  | some other => simp [trackActiveClaim]

/-- A step adds a claim only with its embed. -/
theorem EmbedCall.Effect.added (effect : call.Effect sets moved next spawned)
    (still : claim ∈ moved.activeClaimedEmbeds) :
    claim ∈ sets.activeClaimedEmbeds ∨ next.Tracks claim := by
  cases effect with
  | moves => exact Or.inl still
  | takes => exact Or.inl still
  | @tracks _ work others closing before after =>
      rcases EmbedSets.mem_trackActiveClaim.mp still with added | before
      · refine Or.inr ⟨⟨work, work.activeClaim⟩, List.mem_append_right _ ?_, added.symm⟩
        rw [after]
        exact List.mem_append_right _ (List.mem_singleton_self _)
      · exact Or.inl before
  | dropsKey => exact Or.inl still
  | dropsClaim => exact Or.inl (EmbedSets.mem_dropActiveClaim.mp still).2

/-- A step forgets the embed of a claim only with the claim. -/
theorem EmbedCall.Effect.kept (effect : call.Effect sets moved next spawned)
    (still : claim ∈ moved.activeClaimedEmbeds) (tracks : call.Tracks claim) :
    next.Tracks claim ∨ ∃ task ∈ spawned, task.Tracks claim := by
  obtain ⟨item, itemMem, has⟩ := tracks
  cases effect with
  | moves closing held =>
      rw [← closing, ← held, ← List.append_assoc] at itemMem
      rcases List.mem_append.mp itemMem with here | there
      · exact Or.inl ⟨item, here, has⟩
      · obtain ⟨task, taskMem, taskHeld⟩ := List.mem_flatMap.mp there
        exact Or.inr ⟨task, Option.mem_toList.mp taskMem, item,
          List.mem_append_right _ taskHeld, has⟩
  | takes free closing held =>
      rw [← closing] at itemMem
      refine Or.inl ⟨item, ?_, has⟩
      rw [held]
      exact List.mem_append.mpr ((List.mem_append.mp itemMem).imp_right (List.mem_cons_of_mem _))
  | tracks closing before after =>
      rw [← closing, before] at itemMem
      refine Or.inl ⟨item, ?_, has⟩
      rw [after]
      rcases List.mem_append.mp itemMem with closed | held
      · exact List.mem_append_left _ closed
      · rcases List.mem_cons.mp held with rfl | other
        · cases has
        · exact List.mem_append_right _ (List.mem_append_left _ other)
  | dropsKey closing opened held =>
      rw [closing, held] at itemMem
      refine Or.inl ⟨item, ?_, has⟩
      rw [opened]
      exact itemMem
  | dropsClaim closing closed held =>
      rw [closing, ← held] at itemMem
      rcases List.mem_cons.mp itemMem with rfl | other
      · exact absurd has.symm (EmbedSets.mem_dropActiveClaim.mp still).1
      · exact Or.inl ⟨item, List.mem_append_right _ other, has⟩

end Claims

/-! ## Every run of the process -/

namespace EmbedWorld

/-- The embeds that hold a key, over all calls and tasks. -/
def holders (world : EmbedWorld) (key : EmbedKey) : Nat :=
  (world.calls.map (EmbedCall.holders key)).sum

/-- Every key in flight has one holder, and every tracked claim an embed. -/
structure Owned (world : EmbedWorld) : Prop where
  keys : ∀ key, world.holders key = world.sets.occupied key
  claims : ∀ claim ∈ world.sets.activeClaimedEmbeds, ∃ call ∈ world.calls, call.Tracks claim

theorem countP_live (world : EmbedWorld) (key : EmbedKey) :
    world.live.countP (LiveEmbed.holds key) = world.holders key := by
  rw [live, List.countP_flatMap, holders]
  congr 1
  exact List.map_congr_left fun call _ => call.phase.countP_live

theorem holders_le {world : EmbedWorld} {index : Nat} {call : EmbedCall}
    (found : world.calls[index]? = some call) (key : EmbedKey) :
    call.holders key ≤ world.holders key := by
  -- The total without this call is what is left when the call is replaced by an idle one.
  have total := sum_map_set_of_getElem? (EmbedCall.holders key) { call with phase := .idle } found
  have idle : EmbedCall.holders key { call with phase := .idle } = 0 := rfl
  rw [holders]
  omega

theorem owned_advance {world next : EmbedWorld} {index : Nat} (owned : world.Owned)
    (stepEq : world.step (.advance index) = some next) : next.Owned := by
  obtain ⟨call, found, moves⟩ := Option.bind_eq_some_iff.mp stepEq
  obtain ⟨⟨sets, after, spawned⟩, callStep, rfl⟩ := Option.map_eq_some_iff.mp moves
  have effect := EmbedCall.step_effect callStep
  constructor
  · intro key
    have moved := effect.holders (owned.keys key ▸ holders_le found key)
    have total := sum_map_set_of_getElem? (EmbedCall.holders key) after found
    have before := owned.keys key
    rw [holders] at before ⊢
    rw [List.map_append, List.sum_append]
    dsimp only
    omega
  · intro claim still
    have tracked : after.Tracks claim ∨ (∃ task ∈ spawned, task.Tracks claim) ∨
        ∃ other ∈ world.calls.set index after, other.Tracks claim := by
      by_cases tracks : call.Tracks claim
      · exact (effect.kept still tracks).imp_right Or.inl
      · rcases effect.added still with before | new
        · exact Or.inr (Or.inr (exists_set_of_exists found tracks (owned.claims claim before)))
        · exact Or.inl new
    rcases tracked with new | ⟨task, taskMem, tracks⟩ | ⟨other, otherMem, tracks⟩
    · obtain ⟨worker, workerMem, tracks⟩ :
          ∃ worker ∈ world.calls.set index after, worker.Tracks claim := exists_set_new found new
      exact ⟨worker, List.mem_append_left _ workerMem, tracks⟩
    · exact ⟨task, List.mem_append_right _ (Option.mem_toList.mpr taskMem), tracks⟩
    · exact ⟨other, List.mem_append_left _ otherMem, tracks⟩

theorem owned_step {world next : EmbedWorld} {event : EmbedEvent} (owned : world.Owned)
    (stepEq : world.step event = some next) : next.Owned := by
  cases event with
  | request call =>
      rw [step] at stepEq
      split at stepEq
      · next fresh =>
          cases stepEq
          constructor
          · intro key
            have before := owned.keys key
            have idle : call.holders key = 0 := by
              rw [EmbedCall.holders, fresh]
              rfl
            rw [holders] at before ⊢
            rw [List.map_append, List.sum_append, before, List.map_singleton, List.sum_singleton,
              idle, Nat.add_zero]
          · intro claim still
            obtain ⟨other, otherMem, tracks⟩ := owned.claims claim still
            exact ⟨other, List.mem_append_left _ otherMem, tracks⟩
      · cases stepEq
  | advance index => exact owned_advance owned stepEq
  | stop index =>
      obtain ⟨call, found, rfl⟩ := Option.map_eq_some_iff.mp stepEq
      constructor
      · intro key
        have total := sum_map_set_of_getElem? (EmbedCall.holders key) call.stop found
        have before := owned.keys key
        have same : call.stop.holders key = call.holders key := rfl
        rw [holders] at before ⊢
        dsimp only
        omega
      · intro claim still
        by_cases tracks : call.Tracks claim
        · have kept : call.stop.Tracks claim := tracks
          exact exists_set_new found kept
        · exact exists_set_of_exists found tracks (owned.claims claim still)
  | admittedSpawns closed =>
      cases stepEq
      exact ⟨owned.keys, owned.claims⟩

theorem owned_run {events : List EmbedEvent} {world : EmbedWorld}
    (runEq : run step initial events = some world) : world.Owned :=
  run_invariant (fun _ _ _ owned stepEq => owned_step owned stepEq)
    (show initial.Owned from ⟨fun _ => rfl, fun _ still => absurd still (Finset.notMem_empty _)⟩)
    runEq

/-- A key that no embed holds is not in flight, and the next call that asks for it
gets it. -/
theorem Owned.admits {world : EmbedWorld} (owned : world.Owned) {key : EmbedKey}
    (free : ∀ embed ∈ world.live, embed.holds key = false) :
    key ∉ world.sets.inflightEmbeds ∧
      ∀ index again work todo tracked later rejectedSpawn,
        world.calls[index]? = some ⟨.preparing again (work :: todo) tracked, later, rejectedSpawn⟩ →
        work.key = key →
        ∃ next, world.step (.advance index) = some next ∧
          next.calls[index]? = some ⟨.tracking again work todo tracked, later, rejectedSpawn⟩ ∧
          key ∈ next.sets.inflightEmbeds := by
  have none : world.sets.occupied key = 0 := by
    rw [← owned.keys, ← countP_live, List.countP_eq_zero]
    exact fun embed embedMem => ne_true_of_eq_false (free embed embedMem)
  have outside : key ∉ world.sets.inflightEmbeds := by
    intro inside
    rw [EmbedSets.occupied, if_pos inside] at none
    cases none
  refine ⟨outside, ?_⟩
  rintro index again work todo tracked later rejectedSpawn found rfl
  obtain ⟨bound, -⟩ := List.getElem?_eq_some_iff.mp found
  have taken : world.sets.beginInflightEmbed work.key =
      some { world.sets with inflightEmbeds := insert work.key world.sets.inflightEmbeds } :=
    if_neg outside
  refine ⟨⟨{ world.sets with inflightEmbeds := insert work.key world.sets.inflightEmbeds },
    world.calls.set index ⟨.tracking again work todo tracked, later, rejectedSpawn⟩⟩, ?_,
    List.getElem?_set_self bound, Finset.mem_insert_self _ _⟩
  rw [step, found, Option.bind_some, EmbedCall.step]
  dsimp only
  rw [taken, Option.map_some, Option.toList_none, List.append_nil]

end EmbedWorld

/-- At every moment a key has at most one embed that is carried out; a key in flight
has exactly one embed; a key without an embed is free for the next call; and every
tracked claim has an embed that has not ended. -/
theorem one_embed_for_each_key {events : List EmbedEvent} {world : EmbedWorld}
    (runEq : run EmbedWorld.step EmbedWorld.initial events = some world) :
    (∀ key, world.live.countP (LiveEmbed.embeds key) ≤ 1) ∧
      (∀ key ∈ world.sets.inflightEmbeds, world.live.countP (LiveEmbed.holds key) = 1) ∧
      (∀ key, (∀ embed ∈ world.live, embed.holds key = false) →
        key ∉ world.sets.inflightEmbeds ∧
          ∀ index again work todo tracked later rejectedSpawn,
            world.calls[index]? =
              some ⟨.preparing again (work :: todo) tracked, later, rejectedSpawn⟩ →
            work.key = key →
            ∃ next, world.step (.advance index) = some next ∧
              next.calls[index]? = some ⟨.tracking again work todo tracked, later, rejectedSpawn⟩ ∧
              key ∈ next.sets.inflightEmbeds) ∧
      ∀ claim ∈ world.sets.activeClaimedEmbeds,
        ∃ embed ∈ world.live, embed.tracked.activeClaim = some claim := by
  have owned := EmbedWorld.owned_run runEq
  have holders : ∀ key, world.live.countP (LiveEmbed.holds key) = world.sets.occupied key :=
    fun key => (world.countP_live key).trans (owned.keys key)
  refine ⟨fun key => ?_, fun key inside => ?_, fun key free => owned.admits free, ?_⟩
  · have embedsHold : ∀ embed ∈ world.live,
        embed.embeds key = true → embed.holds key = true := by
      rintro ⟨stage, tracked⟩ - embeds
      cases stage <;> simp_all [LiveEmbed.embeds, LiveEmbed.holds]
    calc
      world.live.countP (LiveEmbed.embeds key)
          ≤ world.live.countP (LiveEmbed.holds key) := List.countP_mono_left embedsHold
      _ = world.sets.occupied key := holders key
      _ ≤ 1 := by
          rw [EmbedSets.occupied]
          split <;> decide
  · rw [holders, EmbedSets.occupied, if_pos inside]
  · intro claim still
    obtain ⟨call, callMem, tracks⟩ := owned.claims claim still
    obtain ⟨embed, embedMem, has⟩ := tracks.exists_live
    exact ⟨embed, List.mem_flatMap.mpr ⟨call, callMem, embedMem⟩, has⟩

/-- The single embed of the sample run. -/
def noteEmbed : EmbedWork :=
  ⟨⟨7⟩, "note", 0, none⟩

/-- The task of a single embed is refused, and the call takes its key again. -/
def refusedEmbedEvents : List EmbedEvent :=
  [.request (.spawnEmbedTask ⟨7⟩ "note" 0), .advance 0, .advance 0, .advance 0, .advance 0,
    .admittedSpawns true, .advance 0, .advance 0, .advance 0, .advance 0, .advance 0, .advance 0,
    .advance 0]

/-- The state behind these events. -/
def refusedEmbedWorld : EmbedWorld :=
  ⟨⟨{(⟨7⟩, 0)}, ∅, true⟩, [⟨.running true [⟨noteEmbed, none⟩], [], .runInline⟩]⟩

theorem refused_embed_runs_inline :
    refusedEmbedWorld.live.countP (LiveEmbed.holds (⟨7⟩, 0)) = 1 :=
  (one_embed_for_each_key
    (show run EmbedWorld.step EmbedWorld.initial refusedEmbedEvents = some refusedEmbedWorld
      from rfl)).2.1 (⟨7⟩, 0) (Finset.mem_singleton_self _)

end LocalHold
