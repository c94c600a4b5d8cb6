import LocalHold.Engine.EmbedBatches
import Mathlib.Algebra.Order.Group.Multiset
import Mathlib.Tactic.Abel

/-!
# Accounting of embedding batches

Every claimed item of a call ends in exactly one way: its claim is released
because it was in flight already or its task was refused, or it is part of one
batch run, which writes the provider's result for it back or releases its claim.
-/

namespace LocalHold

open Paging Transition Transition.Program

abbrev BatchEvent : Type :=
  Event BatchRequest BatchRequest.Answer

/-- Events that reach the provider or the store. -/
def isEffect : BatchEvent → Bool
  | ⟨.embedBatch _, _⟩ => true
  | ⟨.embed _, _⟩ => true
  | ⟨.setEmbedding _ _ _, _⟩ => true
  | ⟨.releaseEmbeddingClaim _ _ _, _⟩ => true
  | _ => false

/-! ## What a batch run does -/

/-- The claim of an item is released with the token of the item. -/
def Released (work : EmbedWork) (event : BatchEvent) : Prop :=
  ∃ token answer, work.claimToken = some token ∧
    event = ⟨.releaseEmbeddingClaim work.id work.expectedRevision token, answer⟩

/-- A result of the provider is applied to an item. -/
inductive AppliedTo (work : EmbedWork) :
    Except EmbeddingError Embedding → List BatchEvent → Prop
  | failed {error : EmbeddingError} {event : BatchEvent} (released : Released work event) :
      AppliedTo work (.error error) [event]
  | stored {embedding : Embedding} :
      AppliedTo work (.ok embedding)
        [⟨.setEmbedding work.id embedding work.expectedRevision, .ok ()⟩]
  | refused {embedding : Embedding} {error : StoreError} {event : BatchEvent}
      (released : Released work event) :
      AppliedTo work (.ok embedding)
        [⟨.setEmbedding work.id embedding work.expectedRevision, .error error⟩, event]

/-- The results are applied to the items, each to its own item. -/
def Applied (items : List EmbedWork) (results : List (Except EmbeddingError Embedding))
    (events : List BatchEvent) : Prop :=
  ∃ parts, List.Forall₂ (fun pair part => AppliedTo pair.1 pair.2 part) (items.zip results) parts ∧
    events = parts.flatten

/-- Whether a batch-level error is permanent. -/
def EmbeddingError.isPermanent : EmbeddingError → Bool
  | .permanent _ => true
  | _ => false

/-- The answers to a batch request of some size after which the items are
embedded one by one. -/
def FallsBack (size : Nat) : Except EmbeddingError (List Embedding) → Prop
  | .ok embeddings => embeddings.length ≠ size
  | .error error => error.isPermanent = true

/-- One request for each content, with its result. -/
def singles (contents : List String) (results : List (Except EmbeddingError Embedding)) :
    List BatchEvent :=
  List.zipWith (fun content result => ⟨.embed content, result⟩) contents results

theorem exists_of_mem_singles {contents : List String}
    {results : List (Except EmbeddingError Embedding)} {event : BatchEvent}
    (member : event ∈ singles contents results) :
    ∃ content result, event = ⟨.embed content, result⟩ := by
  rw [singles, ← List.map_uncurry_zip_eq_zipWith] at member
  obtain ⟨pair, _, rfl⟩ := List.mem_map.mp member
  exact ⟨pair.1, pair.2, rfl⟩

/-- What one run of a batch asks of the provider and the store. -/
inductive BatchRun : List EmbedWork → List BatchEvent → Prop
  | idle : BatchRun [] []
  | answered {items : List EmbedWork} {embeddings : List Embedding} {applied : List BatchEvent}
      (complete : embeddings.length = items.length)
      (writes : Applied items (embeddings.map .ok) applied) :
      BatchRun items (⟨.embedBatch (items.map EmbedWork.content), .ok embeddings⟩ :: applied)
  | individually {items : List EmbedWork} {answer : Except EmbeddingError (List Embedding)}
      {results : List (Except EmbeddingError Embedding)} {applied : List BatchEvent}
      (fallsBack : FallsBack items.length answer) (complete : results.length = items.length)
      (writes : Applied items results applied) :
      BatchRun items (⟨.embedBatch (items.map EmbedWork.content), answer⟩ ::
        (singles (items.map EmbedWork.content) results ++ applied))
  | failed {items : List EmbedWork} {error : EmbeddingError} {releases : List BatchEvent}
      (passing : error.isPermanent = false) (released : List.Forall₂ Released items releases) :
      BatchRun items (⟨.embedBatch (items.map EmbedWork.content), .error error⟩ :: releases)

/-! ## Traces of the tasks -/

theorem traces_releaseWorkClaim {work : EmbedWork} (claimed : work.claimToken.isSome)
    {events : List BatchEvent} (ran : Traces (releaseWorkClaim work) events ()) :
    ∃ event, Released work event ∧ events = [event] := by
  obtain ⟨token, holds⟩ := Option.isSome_iff_exists.mp claimed
  rw [releaseWorkClaim, holds] at ran
  obtain ⟨answer, late, ended, rfl⟩ := traces_perform_bind ran
  obtain ⟨rfl, _⟩ := traces_pure ended
  exact ⟨_, ⟨token, answer, holds, rfl⟩, rfl⟩

theorem traces_applyEmbeddingResult {work : EmbedWork} (claimed : work.claimToken.isSome)
    {result : Except EmbeddingError Embedding} {events : List BatchEvent}
    (ran : Traces (applyEmbeddingResult work result) events ()) : AppliedTo work result events := by
  cases result with
  | error error =>
      obtain ⟨event, released, rfl⟩ := traces_releaseWorkClaim claimed ran
      exact .failed released
  | ok embedding =>
      obtain ⟨answer, late, rest, rfl⟩ := traces_perform_bind ran
      cases answer with
      | ok =>
          obtain ⟨rfl, _⟩ := traces_pure rest
          exact .stored
      | error error =>
          obtain ⟨event, released, rfl⟩ := traces_releaseWorkClaim claimed rest
          exact .refused released

theorem Released.isEffect {work : EmbedWork} {event : BatchEvent} (released : Released work event) :
    isEffect event = true := by
  obtain ⟨token, answer, _, rfl⟩ := released
  rfl

theorem AppliedTo.isEffect {work : EmbedWork} {result : Except EmbeddingError Embedding}
    {events : List BatchEvent} (applied : AppliedTo work result events) :
    ∀ event ∈ events, LocalHold.isEffect event = true := by
  cases applied with
  | failed released => simpa using released.isEffect
  | stored => simp [LocalHold.isEffect]
  | refused released => simpa [LocalHold.isEffect] using released.isEffect

theorem traces_executeIndividually {contents : List String} {events : List BatchEvent}
    {results : List (Except EmbeddingError Embedding)}
    (ran : Traces (executeIndividually contents) events results) :
    results.length = contents.length ∧ events = singles contents results := by
  induction contents generalizing events results with
  | nil =>
      obtain ⟨rfl, rfl⟩ := traces_pure ran
      exact ⟨rfl, rfl⟩
  | cons content rest inductionHypothesis =>
      obtain ⟨result, late, lateRan, rfl⟩ := traces_perform_bind ran
      obtain ⟨early, tail, last, restRan, ended, rfl⟩ := traces_bind lateRan
      obtain ⟨lengths, rfl⟩ := inductionHypothesis restRan
      obtain ⟨rfl, rfl⟩ := traces_pure ended
      refine ⟨by simp [lengths], ?_⟩
      rw [List.append_nil]
      rfl

/-- What the executor asks for a chunk, and its result. -/
theorem traces_executeChunk {contents : List String} {events : List BatchEvent}
    {result : BatchEmbeddingResult} (ran : Traces (executeChunk contents) events result) :
    (∃ embeddings, embeddings.length = contents.length ∧
      result = .perItem (embeddings.map .ok) ∧
      events = [⟨.embedBatch contents, .ok embeddings⟩]) ∨
    (∃ answer results, FallsBack contents.length answer ∧
      results.length = contents.length ∧ result = .perItem results ∧
      events = ⟨.embedBatch contents, answer⟩ :: singles contents results) ∨
    ∃ error, EmbeddingError.isPermanent error = false ∧ result = .batchFailed error ∧
      events = [⟨.embedBatch contents, .error error⟩] := by
  obtain ⟨answer, late, rest, rfl⟩ := traces_perform_bind ran
  have individually {late : List BatchEvent}
      (rest : Traces (do return .perItem (← executeIndividually contents)) late result) :
      ∃ results, results.length = contents.length ∧ result = .perItem results ∧
        late = singles contents results := by
    obtain ⟨early, results, last, singles, ended, rfl⟩ := traces_bind rest
    obtain ⟨lengths, rfl⟩ := traces_executeIndividually singles
    obtain ⟨rfl, rfl⟩ := traces_pure ended
    exact ⟨results, lengths, rfl, List.append_nil _⟩
  cases answer with
  | ok embeddings =>
      dsimp only at rest
      split at rest
      case isTrue complete =>
        obtain ⟨rfl, rfl⟩ := traces_pure rest
        exact Or.inl ⟨embeddings, complete, rfl, rfl⟩
      case isFalse short =>
        obtain ⟨results, lengths, rfl, rfl⟩ := individually rest
        exact Or.inr (Or.inl ⟨.ok embeddings, results, short, lengths, rfl, rfl⟩)
  | error error =>
      cases error with
      | permanent source =>
          obtain ⟨results, lengths, rfl, rfl⟩ := individually rest
          exact Or.inr (Or.inl ⟨.error (.permanent source), results, rfl, lengths, rfl, rfl⟩)
      | transient source =>
          obtain ⟨rfl, rfl⟩ := traces_pure rest
          exact Or.inr (Or.inr ⟨_, rfl, rfl, rfl⟩)
      | rateLimited source retryAfter =>
          obtain ⟨rfl, rfl⟩ := traces_pure rest
          exact Or.inr (Or.inr ⟨_, rfl, rfl, rfl⟩)
      | disabled =>
          obtain ⟨rfl, rfl⟩ := traces_pure rest
          exact Or.inr (Or.inr ⟨_, rfl, rfl, rfl⟩)

theorem traces_dropInflight {work : EmbedWork} {events : List BatchEvent}
    (ran : Traces (dropInflight work) events ()) : events.filter isEffect = [] := by
  rw [traces_perform ran]
  rfl

/-- A round of a loop: effects, then the guard is dropped. -/
theorem traces_guarded {body : BatchProgram Unit} {work : EmbedWork} {events : List BatchEvent}
    {fact : List BatchEvent → Prop}
    (each : ∀ events, Traces body events () → fact events ∧ ∀ event ∈ events, isEffect event = true)
    (ran : Traces (do body; dropInflight work) events ()) : fact (events.filter isEffect) := by
  obtain ⟨early, _, late, bodyRan, dropped, rfl⟩ := traces_bind ran
  obtain ⟨holds, effects⟩ := each early bodyRan
  rwa [List.filter_append, traces_dropInflight dropped, List.append_nil,
    List.filter_eq_self.mpr effects]

/-- The effects of a loop. -/
theorem effects_of_rounds {α : Type} {items : List α} {parts : List (List BatchEvent)}
    {fact : α → List BatchEvent → Prop}
    (rounds : List.Forall₂ (fun item part => fact item (part.filter isEffect)) items parts) :
    ∃ effects, List.Forall₂ fact items effects ∧
      parts.flatten.filter isEffect = effects.flatten :=
  ⟨parts.map (List.filter isEffect), List.forall₂_map_right_iff.mpr rounds, List.filter_flatten⟩

theorem effects_of_released {items : List EmbedWork} {releases : List BatchEvent}
    (released : List.Forall₂ Released items releases) :
    ∀ event ∈ releases, isEffect event = true := by
  induction released with
  | nil => simp
  | cons first _ inductionHypothesis =>
      exact List.forall_mem_cons.mpr ⟨first.isEffect, inductionHypothesis⟩

/-- The claim of an item is released and nothing else is done. -/
def ReleasedOnce (work : EmbedWork) (events : List BatchEvent) : Prop :=
  ∃ event, Released work event ∧ events = [event]

/-- Rounds that release one claim each. -/
theorem releases_of_rounds {items : List EmbedWork} {parts : List (List BatchEvent)}
    (rounds : List.Forall₂ ReleasedOnce items parts) :
    ∃ releases, List.Forall₂ Released items releases ∧ parts.flatten = releases := by
  induction rounds with
  | nil => exact ⟨[], .nil, rfl⟩
  | cons round _ inductionHypothesis =>
      obtain ⟨event, released, rfl⟩ := round
      obtain ⟨releases, rest, same⟩ := inductionHypothesis
      exact ⟨event :: releases, .cons released rest, by rw [← same]; rfl⟩

theorem traces_runBatch {tracked : List EmbedWork}
    (claimed : ∀ work ∈ tracked, work.claimToken.isSome) {events : List BatchEvent}
    (ran : Traces (runBatch tracked) events ()) : BatchRun tracked (events.filter isEffect) := by
  unfold runBatch at ran
  split at ran
  case isTrue empty =>
    obtain ⟨rfl, _⟩ := traces_pure ran
    rw [List.isEmpty_iff.mp empty]
    exact .idle
  case isFalse =>
    obtain ⟨early, result, late, executed, rest, rfl⟩ := traces_bind ran
    have perItem {results : List (Except EmbeddingError Embedding)} {late : List BatchEvent}
        (rest : Traces ((tracked.zip results).forM fun item => do
          applyEmbeddingResult item.1 item.2
          dropInflight item.1) late ()) : Applied tracked results (late.filter isEffect) := by
      have round (item : EmbedWork × Except EmbeddingError Embedding)
          (itemMem : item ∈ tracked.zip results) (events : List BatchEvent)
          (ran : Traces (do applyEmbeddingResult item.1 item.2; dropInflight item.1) events ()) :
          AppliedTo item.1 item.2 (events.filter isEffect) := by
        refine traces_guarded (fun events ran => ?_) ran
        have applied := traces_applyEmbeddingResult (claimed item.1 (List.of_mem_zip itemMem).1) ran
        exact ⟨applied, applied.isEffect⟩
      obtain ⟨parts, rounds, rfl⟩ := traces_forM round rest
      exact effects_of_rounds rounds
    rcases traces_executeChunk executed with ⟨embeddings, complete, rfl, rfl⟩ |
      ⟨answer, results, fallsBack, complete, rfl, rfl⟩ | ⟨error, passing, rfl, rfl⟩
    · rw [List.length_map] at complete
      exact .answered complete (perItem rest)
    · rw [List.length_map] at fallsBack complete
      have effects : ∀ event ∈ singles (tracked.map EmbedWork.content) results,
          isEffect event = true := by
        intro event eventMem
        obtain ⟨content, result, rfl⟩ := exists_of_mem_singles eventMem
        rfl
      rw [List.filter_append, List.filter_cons_of_pos rfl, List.filter_eq_self.mpr effects]
      exact .individually fallsBack complete (perItem rest)
    · have round (work : EmbedWork) (workMem : work ∈ tracked) (events : List BatchEvent)
          (ran : Traces (do releaseWorkClaim work; dropInflight work) events ()) :
          ReleasedOnce work (events.filter isEffect) := by
        refine traces_guarded (fun events ran => ?_) ran
        obtain ⟨event, released, rfl⟩ := traces_releaseWorkClaim (claimed work workMem) ran
        exact ⟨⟨event, released, rfl⟩, by simpa using released.isEffect⟩
      obtain ⟨parts, rounds, rfl⟩ := traces_forM round rest
      obtain ⟨effects, released, same⟩ := effects_of_rounds rounds
      obtain ⟨releases, releasesOk, rfl⟩ := releases_of_rounds released
      rw [List.filter_append, same]
      exact .failed passing releasesOk

/-! ## Which programs start tasks -/

/-- A request that starts no task. -/
def StartsNoTask (request : BatchRequest) : Prop :=
  ∀ answer, startedBatches ⟨request, answer⟩ = []

theorem startsNoTask_releaseWorkClaim (work : EmbedWork) :
    Asks StartsNoTask (releaseWorkClaim work) := by
  unfold releaseWorkClaim
  split
  · exact .pure ()
  · exact .bind (.perform fun _ => rfl) fun _ => .pure ()

theorem startsNoTask_applyEmbeddingResult (work : EmbedWork)
    (result : Except EmbeddingError Embedding) :
    Asks StartsNoTask (applyEmbeddingResult work result) := by
  unfold applyEmbeddingResult
  split
  · exact startsNoTask_releaseWorkClaim work
  · refine .bind (.perform fun _ => rfl) fun answer => ?_
    split
    · exact .pure ()
    · exact startsNoTask_releaseWorkClaim work

theorem startsNoTask_executeIndividually (contents : List String) :
    Asks StartsNoTask (executeIndividually contents) := by
  induction contents with
  | nil => exact .pure []
  | cons content rest inductionHypothesis =>
      exact .bind (.perform fun _ => rfl) fun _ =>
        .bind inductionHypothesis fun _ => .pure _

theorem startsNoTask_executeChunk (contents : List String) :
    Asks StartsNoTask (executeChunk contents) := by
  refine .bind (.perform fun _ => rfl) fun answer => ?_
  have individually := startsNoTask_executeIndividually contents
  split
  · split
    · exact .pure _
    · exact individually.bind fun _ => .pure _
  · exact individually.bind fun _ => .pure _
  · exact .pure _

theorem startsNoTask_runBatch (tracked : List EmbedWork) :
    Asks StartsNoTask (runBatch tracked) := by
  unfold runBatch
  split
  · exact .pure ()
  · refine (startsNoTask_executeChunk _).bind fun result => ?_
    split
    · exact .forM fun item =>
        (startsNoTask_applyEmbeddingResult item.1 item.2).bind fun _ => .perform fun _ => rfl
    · exact .forM fun work =>
        (startsNoTask_releaseWorkClaim work).bind fun _ => .perform fun _ => rfl

theorem startsNoTask_prepareWork (work : List EmbedWork) :
    Asks StartsNoTask (prepareWork work) := by
  induction work with
  | nil => exact .pure []
  | cons item rest inductionHypothesis =>
      refine .bind (.perform fun _ => rfl) fun fresh => ?_
      split
      · exact inductionHypothesis.bind fun _ => .pure _
      · exact (startsNoTask_releaseWorkClaim item).bind fun _ => inductionHypothesis

theorem started_eq_nil {events : List BatchEvent}
    (asked : ∀ event ∈ events, StartsNoTask event.1) : events.flatMap startedBatches = [] :=
  List.flatMap_eq_nil_iff.mpr fun event eventMem => asked event eventMem event.2

/-! ## Traces of the scheduler -/

/-- How the items of a call end: skipped with a release each, or part of a
batch run. -/
structure Account where
  skipped : List EmbedWork
  releases : List BatchEvent
  runs : List (List EmbedWork × List BatchEvent)

/-- The account explains all items that were not handed to a task, and all
effects. -/
structure Account.Explains (account : Account) (items handed : List EmbedWork)
    (effects : List BatchEvent) : Prop where
  items : (account.skipped ++ account.runs.flatMap Prod.fst ++ handed).Perm items
  released : List.Forall₂ Released account.skipped account.releases
  ran : ∀ run ∈ account.runs, BatchRun run.1 run.2
  effects : effects.Perm (account.releases ++ account.runs.flatMap Prod.snd)

/-- The account of two parts. -/
def Account.append (first second : Account) : Account where
  skipped := first.skipped ++ second.skipped
  releases := first.releases ++ second.releases
  runs := first.runs ++ second.runs

theorem Account.Explains.append {first second : Account}
    {items handed laterItems laterHanded : List EmbedWork} {effects laterEffects : List BatchEvent}
    (early : first.Explains items handed effects)
    (late : second.Explains laterItems laterHanded laterEffects) :
    (first.append second).Explains (items ++ laterItems) (handed ++ laterHanded)
      (effects ++ laterEffects) where
  items := by
    refine List.Perm.trans ?_ (early.items.append late.items)
    simp only [Account.append, List.flatMap_append, ← Multiset.coe_eq_coe, ← Multiset.coe_add]
    abel
  released := List.rel_append early.released late.released
  ran := List.forall_mem_append.mpr ⟨early.ran, late.ran⟩
  effects := by
    refine (early.effects.append late.effects).trans ?_
    simp only [Account.append, List.flatMap_append, ← Multiset.coe_eq_coe, ← Multiset.coe_add]
    abel

/-- The account of a part and of the tasks it started. -/
theorem Account.Explains.settle {first second : Account}
    {items handed others laterHanded : List EmbedWork} {effects laterEffects : List BatchEvent}
    (early : first.Explains items handed effects)
    (late : second.Explains others laterHanded laterEffects) (same : others.Perm handed) :
    (first.append second).Explains items laterHanded (effects ++ laterEffects) where
  items := by
    refine List.Perm.trans ?_ early.items
    refine List.Perm.trans ?_ (((late.items.trans same).append_left
      (first.skipped ++ first.runs.flatMap Prod.fst)))
    simp only [Account.append, List.flatMap_append, ← Multiset.coe_eq_coe, ← Multiset.coe_add]
    abel
  released := (early.append late).released
  ran := (early.append late).ran
  effects := (early.append late).effects

/-- The items of a trace are accounted for. -/
def Accounted (items : List EmbedWork) (events : List BatchEvent) : Prop :=
  ∃ account : Account, account.Explains items (events.flatMap startedBatches).flatten
    (events.filter isEffect)

theorem Accounted.append {items laterItems : List EmbedWork} {events laterEvents : List BatchEvent}
    (early : Accounted items events) (late : Accounted laterItems laterEvents) :
    Accounted (items ++ laterItems) (events ++ laterEvents) := by
  obtain ⟨first, firstExplains⟩ := early
  obtain ⟨second, secondExplains⟩ := late
  refine ⟨first.append second, ?_⟩
  rw [List.flatMap_append, List.flatten_append, List.filter_append]
  exact firstExplains.append secondExplains

/-- Skipped items are accounted for by their releases. -/
theorem accounted_of_released {skipped : List EmbedWork} {events : List BatchEvent}
    (released : List.Forall₂ Released skipped (events.filter isEffect))
    (none : events.flatMap startedBatches = []) : Accounted skipped events := by
  refine ⟨⟨skipped, events.filter isEffect, []⟩, ?_, released, by simp, by simp⟩
  simp [none]

/-- The items of a batch run are accounted for. -/
theorem accounted_of_batchRun {items : List EmbedWork} {events : List BatchEvent}
    (ran : BatchRun items (events.filter isEffect))
    (none : events.flatMap startedBatches = []) : Accounted items events := by
  refine ⟨⟨[], [], [(items, events.filter isEffect)]⟩, ?_, .nil, by simpa using ran, by simp⟩
  simp [none]

theorem Accounted.perm {items others : List EmbedWork} {events : List BatchEvent}
    (accounted : Accounted items events) (same : items.Perm others) : Accounted others events := by
  obtain ⟨account, explains⟩ := accounted
  exact ⟨account, explains.items.trans same, explains.released, explains.ran, explains.effects⟩

/-- What `prepare_work` does with each item. -/
theorem traces_prepareWork {work : List EmbedWork}
    (claimed : ∀ item ∈ work, item.claimToken.isSome) {events : List BatchEvent}
    {tracked : List EmbedWork} (ran : Traces (prepareWork work) events tracked) :
    ∃ skipped, (skipped ++ tracked).Perm work ∧
      List.Forall₂ Released skipped (events.filter isEffect) := by
  induction work generalizing events tracked with
  | nil =>
      obtain ⟨rfl, rfl⟩ := traces_pure ran
      exact ⟨[], List.Perm.refl _, .nil⟩
  | cons item rest inductionHypothesis =>
      have restClaimed := fun other otherMem => claimed other (List.mem_cons_of_mem item otherMem)
      obtain ⟨fresh, late, lateRan, rfl⟩ := traces_perform_bind ran
      cases fresh with
      | true =>
          obtain ⟨early, kept, last, restRan, ended, rfl⟩ := traces_bind lateRan
          obtain ⟨rfl, rfl⟩ := traces_pure ended
          obtain ⟨skipped, same, released⟩ := inductionHypothesis restClaimed restRan
          rw [List.append_nil]
          exact ⟨skipped, List.perm_middle.trans (same.cons item), released⟩
      | false =>
          obtain ⟨early, _, last, releaseRan, restRan, rfl⟩ := traces_bind lateRan
          obtain ⟨event, released, rfl⟩ :=
            traces_releaseWorkClaim (claimed item List.mem_cons_self) releaseRan
          obtain ⟨skipped, same, restReleased⟩ := inductionHypothesis restClaimed restRan
          refine ⟨item :: skipped, same.cons item, ?_⟩
          rw [List.filter_cons_of_neg (by simp [isEffect]), List.singleton_append,
            List.filter_cons_of_pos released.isEffect]
          exact .cons released restReleased

/-- Preparing items accounts for the ones that are skipped. -/
theorem accounted_prepareWork {work : List EmbedWork}
    (claimed : ∀ item ∈ work, item.claimToken.isSome) {events : List BatchEvent}
    {tracked : List EmbedWork} (ran : Traces (prepareWork work) events tracked) :
    ∃ skipped, (skipped ++ tracked).Perm work ∧ Accounted skipped events ∧
      ∀ item ∈ tracked, item.claimToken.isSome := by
  obtain ⟨skipped, same, released⟩ := traces_prepareWork claimed ran
  have none := started_eq_nil (startsNoTask_prepareWork work _ _ ran)
  exact ⟨skipped, same, accounted_of_released released none, fun item itemMem =>
    claimed item (same.subset (List.mem_append_right skipped itemMem))⟩

theorem accounted_scheduleChunk {rejectedSpawn : RejectedSpawn} {work : List EmbedWork}
    (claimed : ∀ item ∈ work, item.claimToken.isSome) {events : List BatchEvent} {count : Nat}
    (ran : Traces (scheduleChunk rejectedSpawn work) events count) : Accounted work events := by
  obtain ⟨early, tracked, late, prepared, rest, rfl⟩ := traces_bind ran
  obtain ⟨skipped, same, skippedAccounted, trackedClaimed⟩ := accounted_prepareWork claimed prepared
  refine (skippedAccounted.append ?_).perm same
  split at rest
  case isTrue empty =>
    obtain ⟨rfl, _⟩ := traces_pure rest
    rw [List.isEmpty_iff.mp empty]
    exact accounted_of_released .nil rfl
  case isFalse =>
    obtain ⟨accepted, last, lastRan, rfl⟩ := traces_perform_bind rest
    cases accepted with
    | true =>
        obtain ⟨rfl, _⟩ := traces_pure lastRan
        refine ⟨⟨[], [], []⟩, ?_, .nil, by simp, ?_⟩
        · simp [startedBatches]
        · simp [isEffect]
    | false =>
        -- A refused task starts nothing and has no effect of its own.
        have refused {items : List EmbedWork} {last : List BatchEvent}
            (accounted : Accounted items last) :
            Accounted items (⟨.spawnBatch tracked, false⟩ :: last) := accounted
        apply refused
        cases rejectedSpawn with
        | runInline =>
            obtain ⟨again, kept, tail, preparedAgain, tailRan, rfl⟩ := traces_bind lastRan
            obtain ⟨skippedAgain, sameAgain, againAccounted, keptClaimed⟩ :=
              accounted_prepareWork trackedClaimed preparedAgain
            obtain ⟨inline, _, ended, batchRan, returned, rfl⟩ := traces_bind tailRan
            obtain ⟨rfl, _⟩ := traces_pure returned
            have none := started_eq_nil (startsNoTask_runBatch kept _ _ batchRan)
            rw [List.append_nil]
            exact (againAccounted.append
              (accounted_of_batchRun (traces_runBatch keptClaimed batchRan) none)).perm sameAgain
        | releaseClaims =>
            obtain ⟨releasing, _, ended, releaseRan, returned, rfl⟩ := traces_bind lastRan
            obtain ⟨rfl, _⟩ := traces_pure returned
            have none := started_eq_nil
              (Asks.forM startsNoTask_releaseWorkClaim releasing () releaseRan)
            obtain ⟨parts, rounds, rfl⟩ := traces_forM (fun item itemMem events ran =>
              traces_releaseWorkClaim (trackedClaimed item itemMem) ran) releaseRan
            obtain ⟨releases, releasesOk, rfl⟩ := releases_of_rounds rounds
            rw [List.append_nil]
            refine accounted_of_released ?_ none
            rwa [List.filter_eq_self.mpr (effects_of_released releasesOk)]

theorem accounted_flatten {chunks : List (List EmbedWork)} {parts : List (List BatchEvent)}
    (each : List.Forall₂ Accounted chunks parts) : Accounted chunks.flatten parts.flatten := by
  induction each with
  | nil => exact accounted_of_released .nil rfl
  | cons first _ inductionHypothesis => exact first.append inductionHypothesis

theorem accounted_scheduleBatches {chunkSize : Nat} {rejectedSpawn : RejectedSpawn}
    {work : List EmbedWork} (claimed : ∀ item ∈ work, item.claimToken.isSome)
    {events : List BatchEvent} {count : Nat}
    (ran : Traces (scheduleBatches chunkSize rejectedSpawn work) events count) :
    Accounted work events := by
  have positive : 0 < max chunkSize 1 := by omega
  have each (scheduled : Nat) (chunk : List EmbedWork)
      (chunkMem : chunk ∈ chunks (max chunkSize 1) work)
      (events : List BatchEvent) (next : Nat)
      (ran : Traces (do
        let count ← scheduleChunk rejectedSpawn chunk
        return scheduled + count) events next) : Accounted chunk events := by
    obtain ⟨early, added, late, chunkRan, ended, rfl⟩ := traces_bind ran
    obtain ⟨rfl, _⟩ := traces_pure ended
    rw [List.append_nil]
    refine accounted_scheduleChunk (fun item itemMem => claimed item ?_) chunkRan
    rw [← flatten_chunks positive work]
    exact List.mem_flatten.mpr ⟨chunk, chunkMem, itemMem⟩
  obtain ⟨parts, each, rfl⟩ := traces_foldlM each ran
  have accounted := accounted_flatten each
  rwa [flatten_chunks positive] at accounted

/-! ## Whole runs -/

/-- The scheduler as a program of a pool. -/
def scheduler (chunkSize : Nat) (rejectedSpawn : RejectedSpawn) (work : List EmbedWork) :
    BatchProgram Unit := do
  let _ ← scheduleBatches chunkSize rejectedSpawn work

section Runs

variable [Host] {process : EngineProcess} {chunkSize : Nat} {rejectedSpawn : RejectedSpawn}
  {work : List EmbedWork}

omit [Host] in
theorem started_tasks {batches : List (List EmbedWork)} {parts : List (List BatchEvent)}
    (ran : List.Forall₂ (fun batch events => Traces (runBatch batch) events ()) batches parts) :
    parts.flatten.flatMap startedBatches = [] := by
  induction ran with
  | nil => rfl
  | cons first _ inductionHypothesis =>
      rw [List.flatten_cons, List.flatMap_append, inductionHypothesis, List.append_nil]
      exact started_eq_nil (startsNoTask_runBatch _ _ _ first)

omit [Host] in
theorem accounted_tasks {batches : List (List EmbedWork)} {parts : List (List BatchEvent)}
    (ran : List.Forall₂ (fun batch events => Traces (runBatch batch) events ()) batches parts)
    (claimed : ∀ batch ∈ batches, ∀ item ∈ batch, item.claimToken.isSome) :
    Accounted batches.flatten parts.flatten := by
  apply accounted_flatten
  induction ran with
  | nil => exact .nil
  | cons first _ inductionHypothesis =>
      obtain ⟨firstClaimed, restClaimed⟩ := List.forall_mem_cons.mp claimed
      refine .cons ?_ (inductionHypothesis restClaimed)
      exact accounted_of_batchRun (traces_runBatch firstClaimed first)
        (started_eq_nil (startsNoTask_runBatch _ _ _ first))

/-- When the scheduler and all its tasks have ended, every item is accounted
for. -/
theorem explained_of_run (claimed : ∀ item ∈ work, item.claimToken.isSome) {world : BatchWorld}
    {actions : List (PoolAction BatchChoice BatchInterference)}
    {pool : Pool BatchRequest BatchRequest.Answer BatchWorld}
    (runEq : run (poolStep process.surroundings)
      (Pool.start world (scheduler chunkSize rejectedSpawn work)) actions = some pool)
    (finished : pool.Finished) :
    ∃ account : Account, account.Explains work [] (pool.log.filter isEffect) := by
  obtain ⟨traces, ran, log⟩ := Pool.finished_log runEq finished
  obtain ⟨scheduled, children, scheduledRan, childrenRan, rfl⟩ :=
    List.forall₂_cons_left_iff.mp ran
  have started : pool.log.flatMap process.surroundings.starts =
      (pool.log.flatMap startedBatches).map runBatch := by
    rw [List.map_flatMap]
    rfl
  rw [started, List.forall₂_map_left_iff] at childrenRan
  obtain ⟨early, count, late, chunksRan, ended, rfl⟩ := traces_bind scheduledRan
  obtain ⟨rfl, _⟩ := traces_pure ended
  rw [List.append_nil] at log
  obtain ⟨account, explains⟩ := accounted_scheduleBatches claimed chunksRan
  have none := started_tasks childrenRan
  have handed : (pool.log.flatMap startedBatches).flatten.Perm
      (early.flatMap startedBatches).flatten := by
    have same := log.flatMap_right startedBatches
    rw [List.flatten_cons, List.flatMap_append, none, List.append_nil] at same
    exact same.flatten
  have batchClaimed : ∀ batch ∈ pool.log.flatMap startedBatches, ∀ item ∈ batch,
      item.claimToken.isSome := by
    intro batch batchMem item itemMem
    refine claimed item (explains.items.subset (List.mem_append_right _ (handed.subset ?_)))
    exact List.mem_flatten.mpr ⟨batch, batchMem, itemMem⟩
  obtain ⟨tasks, tasksExplain⟩ := accounted_tasks childrenRan batchClaimed
  refine ⟨account.append tasks, ?_⟩
  have settled := explains.settle tasksExplain handed
  rw [none, List.flatten_nil, ← List.filter_append] at settled
  exact ⟨settled.items, settled.released, settled.ran, (log.filter _).trans settled.effects⟩

end Runs

end LocalHold
