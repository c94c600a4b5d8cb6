import LocalHold.Engine.BatchAccounting
import LocalHold.Engine.WriteBacks

/-!
# Settlement of embedding batches

The account of a finished run says how every item ended: its embedding was
stored, or its claim was released with its own token, and each exactly once.
No request to the provider or the store is made twice for an item.
-/

namespace LocalHold

open Transition Transition.Program

/-! ## Settlements -/

/-- How an item ends in the store. -/
inductive Settlement where
  | stored (id : MemoryId) (expectedRevision : Int)
  | released (id : MemoryId) (expectedRevision : Int) (claimToken : String)
deriving DecidableEq, Repr

/-- The settlement that an event brings about: a write or a release that
succeeds. -/
def settlement : BatchEvent → Option Settlement
  | ⟨.setEmbedding id _ expectedRevision, .ok ()⟩ => some (.stored id expectedRevision)
  | ⟨.releaseEmbeddingClaim id expectedRevision claimToken, .ok _⟩ =>
      some (.released id expectedRevision claimToken)
  | _ => none

/-- The settlements of an item: its embedding is stored under its own revision,
or its claim is released with its own token. -/
inductive EmbedWork.SettledBy (work : EmbedWork) : Settlement → Prop
  | stored : work.SettledBy (.stored work.id work.expectedRevision)
  | released {token : String} (own : work.claimToken = some token) :
      work.SettledBy (.released work.id work.expectedRevision token)

/-- A release succeeds. -/
def ReleaseSucceeds (event : BatchEvent) : Prop :=
  ∀ id revision token error, event ≠ ⟨.releaseEmbeddingClaim id revision token, .error error⟩

/-- A successful release settles the item. -/
theorem Released.settles {work : EmbedWork} {event : BatchEvent} (released : Released work event)
    (succeeds : ReleaseSucceeds event) :
    ∃ settled, settlement event = some settled ∧ work.SettledBy settled := by
  obtain ⟨token, answer, own, rfl⟩ := released
  cases answer with
  | ok released => exact ⟨_, rfl, .released own⟩
  | error error => exact absurd rfl (succeeds _ _ _ error)

theorem settles_releases {items : List EmbedWork} {releases : List BatchEvent}
    (released : List.Forall₂ Released items releases)
    (succeed : ∀ event ∈ releases, ReleaseSucceeds event) :
    List.Forall₂ EmbedWork.SettledBy items (releases.filterMap settlement) := by
  induction released with
  | nil => exact .nil
  | cons first _ inductionHypothesis =>
      obtain ⟨firstSucceeds, restSucceed⟩ := List.forall_mem_cons.mp succeed
      obtain ⟨settled, isSettled, settles⟩ := first.settles firstSucceeds
      rw [List.filterMap_cons_some isSettled]
      exact .cons settles (inductionHypothesis restSucceed)

theorem AppliedTo.settles {work : EmbedWork} {result : Except EmbeddingError Embedding}
    {events : List BatchEvent} (applied : AppliedTo work result events)
    (succeed : ∀ event ∈ events, ReleaseSucceeds event) :
    ∃ settled, events.filterMap settlement = [settled] ∧ work.SettledBy settled := by
  cases applied with
  | failed released =>
      obtain ⟨settled, isSettled, settles⟩ :=
        released.settles (List.forall_mem_singleton.mp succeed)
      exact ⟨settled, List.filterMap_cons_some isSettled, settles⟩
  | stored => exact ⟨_, rfl, .stored⟩
  | refused released =>
      obtain ⟨settled, isSettled, settles⟩ :=
        released.settles (List.forall_mem_singleton.mp (List.forall_mem_cons.mp succeed).2)
      refine ⟨settled, ?_, settles⟩
      rw [List.filterMap_cons_none rfl]
      exact List.filterMap_cons_some isSettled

theorem Applied.settles {items : List EmbedWork}
    {results : List (Except EmbeddingError Embedding)} {events : List BatchEvent}
    (applied : Applied items results events) (complete : results.length = items.length)
    (succeed : ∀ event ∈ events, ReleaseSucceeds event) :
    List.Forall₂ EmbedWork.SettledBy items (events.filterMap settlement) := by
  obtain ⟨parts, each, rfl⟩ := applied
  induction items generalizing results parts with
  | nil =>
      cases each
      exact .nil
  | cons item rest inductionHypothesis =>
      cases results with
      | nil => cases complete
      | cons result results =>
          cases each with
          | cons first later =>
              rw [List.flatten_cons] at succeed
              obtain ⟨firstSucceed, restSucceed⟩ := List.forall_mem_append.mp succeed
              obtain ⟨settled, isSettled, settles⟩ := first.settles firstSucceed
              rw [List.flatten_cons, List.filterMap_append, isSettled]
              exact .cons settles
                (inductionHypothesis (Nat.succ.inj complete) _ later restSucceed)

theorem settlements_singles (contents : List String)
    (results : List (Except EmbeddingError Embedding)) :
    (singles contents results).filterMap settlement = [] := by
  rw [List.filterMap_eq_nil_iff]
  intro event eventMem
  obtain ⟨content, result, rfl⟩ := exists_of_mem_singles eventMem
  rfl

theorem BatchRun.settles {items : List EmbedWork} {events : List BatchEvent}
    (ran : BatchRun items events) (succeed : ∀ event ∈ events, ReleaseSucceeds event) :
    List.Forall₂ EmbedWork.SettledBy items (events.filterMap settlement) := by
  cases ran with
  | idle => exact .nil
  | answered complete writes =>
      exact writes.settles (by simpa using complete) (List.forall_mem_cons.mp succeed).2
  | individually fallsBack complete writes =>
      obtain ⟨_, later⟩ := List.forall_mem_cons.mp succeed
      rw [List.filterMap_cons_none rfl, List.filterMap_append, settlements_singles]
      exact writes.settles complete (List.forall_mem_append.mp later).2
  | failed passing released =>
      rw [List.filterMap_cons_none rfl]
      exact settles_releases released (List.forall_mem_cons.mp succeed).2

theorem forall₂_flatMap {α β γ : Type} {relation : β → γ → Prop} {first : α → List β}
    {second : α → List γ} {rows : List α}
    (each : ∀ row ∈ rows, List.Forall₂ relation (first row) (second row)) :
    List.Forall₂ relation (rows.flatMap first) (rows.flatMap second) := by
  induction rows with
  | nil => exact .nil
  | cons row rest inductionHypothesis =>
      obtain ⟨rowRelated, restRelated⟩ := List.forall_mem_cons.mp each
      exact List.rel_append rowRelated (inductionHypothesis restRelated)

/-- All items of an account are settled, each once. -/
theorem Account.Explains.settles {account : Account} {work : List EmbedWork}
    {effects : List BatchEvent} (explains : account.Explains work [] effects)
    (succeed : ∀ event ∈ effects, ReleaseSucceeds event) :
    ∃ settlements, List.Forall₂ EmbedWork.SettledBy work settlements ∧
      (effects.filterMap settlement).Perm settlements := by
  have sources (event : BatchEvent) := explains.effects.mem_iff (a := event)
  have skipped := settles_releases explains.released fun event eventMem =>
    succeed event ((sources event).mpr (List.mem_append_left _ eventMem))
  have ran : List.Forall₂ EmbedWork.SettledBy (account.runs.flatMap Prod.fst)
      ((account.runs.flatMap Prod.snd).filterMap settlement) := by
    rw [List.filterMap_flatMap]
    refine forall₂_flatMap fun run runMem => ?_
    exact (explains.ran run runMem).settles fun event eventMem =>
      succeed event ((sources event).mpr (List.mem_append_right _
        (List.mem_flatMap.mpr ⟨run, runMem, eventMem⟩)))
  have all : List.Forall₂ EmbedWork.SettledBy (account.skipped ++ account.runs.flatMap Prod.fst)
      ((account.releases ++ account.runs.flatMap Prod.snd).filterMap settlement) := by
    rw [List.filterMap_append]
    exact List.rel_append skipped ran
  have items := explains.items
  rw [List.append_nil] at items
  obtain ⟨settlements, settled, same⟩ := List.perm_comp_forall₂ items.symm all
  exact ⟨settlements, settled, (explains.effects.filterMap _).trans same.symm⟩

/-! ## Each request at most once -/

/-- The texts of a batch request. -/
def batchTexts : BatchEvent → List String
  | ⟨.embedBatch texts, _⟩ => texts
  | _ => []

/-- The text of a request for one item. -/
def singleTexts : BatchEvent → List String
  | ⟨.embed text, _⟩ => [text]
  | _ => []

/-- The memory and revision that a request writes an embedding to. -/
def writtenKeys : BatchEvent → List (MemoryId × Int)
  | ⟨.setEmbedding id _ expectedRevision, _⟩ => [(id, expectedRevision)]
  | _ => []

section Counts

variable {β : Type} {asked : BatchEvent → List β} {own : EmbedWork → β}

theorem flatMap_releases {skipped : List EmbedWork} {releases : List BatchEvent}
    (quiet : ∀ item event, Released item event → asked event = [])
    (released : List.Forall₂ Released skipped releases) : releases.flatMap asked = [] := by
  induction released with
  | nil => rfl
  | cons first _ inductionHypothesis =>
      rw [List.flatMap_cons, quiet _ _ first, inductionHypothesis, List.append_nil]

theorem flatMap_runs {runs : List (List EmbedWork × List BatchEvent)}
    (ran : ∀ items events, BatchRun items events → (events.flatMap asked).Sublist (items.map own))
    (each : ∀ run ∈ runs, BatchRun run.1 run.2) :
    ((runs.flatMap Prod.snd).flatMap asked).Sublist ((runs.flatMap Prod.fst).map own) := by
  induction runs with
  | nil => exact .slnil
  | cons run rest inductionHypothesis =>
      obtain ⟨first, later⟩ := List.forall_mem_cons.mp each
      rw [List.flatMap_cons, List.flatMap_append, List.flatMap_cons, List.map_append]
      exact (ran _ _ first).append (inductionHypothesis later)

/-- What the events of an account ask for comes once from each item. -/
theorem Account.Explains.subperm {account : Account} {work : List EmbedWork}
    {effects : List BatchEvent} (explains : account.Explains work [] effects)
    (released : ∀ item event, Released item event → asked event = [])
    (ran : ∀ items events, BatchRun items events → (events.flatMap asked).Sublist (items.map own)) :
    (effects.flatMap asked).Subperm (work.map own) := by
  have quiet := flatMap_releases released explains.released
  have runs := flatMap_runs ran explains.ran
  have items := explains.items
  rw [List.append_nil] at items
  have included : ((account.runs.flatMap Prod.snd).flatMap asked).Subperm (work.map own) := by
    refine runs.subperm.trans ?_
    refine List.Subperm.trans ?_ (items.map own).subperm
    rw [List.map_append]
    exact (List.sublist_append_right _ _).subperm
  have effects := explains.effects.flatMap_right asked
  rw [List.flatMap_append, quiet, List.nil_append] at effects
  exact effects.subperm.trans included

theorem AppliedTo.flatMap_sublist {work : EmbedWork} {result : Except EmbeddingError Embedding}
    {events : List BatchEvent} (applied : AppliedTo work result events)
    (released : ∀ item event, Released item event → asked event = [])
    (written : ∀ embedding answer, (asked ⟨.setEmbedding work.id embedding work.expectedRevision,
      answer⟩).Sublist [own work]) : (events.flatMap asked).Sublist [own work] := by
  cases applied with
  | failed isReleased => simp [released _ _ isReleased]
  | stored => simpa using written _ _
  | refused isReleased => simpa [released _ _ isReleased] using written _ _

theorem Applied.flatMap_sublist {items : List EmbedWork}
    {results : List (Except EmbeddingError Embedding)} {events : List BatchEvent}
    (applied : Applied items results events)
    (released : ∀ item event, Released item event → asked event = [])
    (written : ∀ item : EmbedWork, ∀ embedding answer, (asked ⟨.setEmbedding item.id embedding
      item.expectedRevision, answer⟩).Sublist [own item]) :
    (events.flatMap asked).Sublist (items.map own) := by
  obtain ⟨parts, each, rfl⟩ := applied
  induction items generalizing results parts with
  | nil =>
      cases each
      exact .slnil
  | cons item rest inductionHypothesis =>
      cases results with
      | nil =>
          cases each
          exact List.nil_sublist _
      | cons result results =>
          cases each with
          | cons first later =>
              rw [List.flatten_cons, List.flatMap_append]
              exact (first.flatMap_sublist released (written item)).append
                (inductionHypothesis _ later)

end Counts

/-- What an event of an applied result can be. -/
def WritesBack : BatchEvent → Prop
  | ⟨.setEmbedding _ _ _, _⟩ => True
  | ⟨.releaseEmbeddingClaim _ _ _, _⟩ => True
  | _ => False

theorem Released.writesBack {work : EmbedWork} {event : BatchEvent}
    (released : Released work event) : WritesBack event := by
  obtain ⟨token, answer, _, rfl⟩ := released
  trivial

theorem writesBack_of_released {items : List EmbedWork} {releases : List BatchEvent}
    (released : List.Forall₂ Released items releases) : ∀ event ∈ releases, WritesBack event := by
  induction released with
  | nil => simp
  | cons first _ inductionHypothesis =>
      exact List.forall_mem_cons.mpr ⟨first.writesBack, inductionHypothesis⟩

theorem AppliedTo.writesBack {work : EmbedWork} {result : Except EmbeddingError Embedding}
    {events : List BatchEvent} (applied : AppliedTo work result events) :
    ∀ event ∈ events, WritesBack event := by
  cases applied with
  | failed released => exact List.forall_mem_singleton.mpr released.writesBack
  | stored => exact List.forall_mem_singleton.mpr trivial
  | refused released =>
      exact List.forall_mem_cons.mpr
        ⟨trivial, List.forall_mem_singleton.mpr released.writesBack⟩

theorem Applied.writesBack {items : List EmbedWork}
    {results : List (Except EmbeddingError Embedding)} {events : List BatchEvent}
    (applied : Applied items results events) : ∀ event ∈ events, WritesBack event := by
  obtain ⟨parts, each, rfl⟩ := applied
  generalize items.zip results = pairs at each
  induction each with
  | nil => simp
  | cons first _ inductionHypothesis =>
      exact List.forall_mem_append.mpr ⟨first.writesBack, inductionHypothesis⟩

theorem writtenKeys_of_released {work : EmbedWork} {event : BatchEvent}
    (released : Released work event) : writtenKeys event = [] := by
  obtain ⟨token, answer, _, rfl⟩ := released
  rfl

/-- The one batch request of a run comes first; what follows are requests for
single items after it was rejected, then writes. -/
theorem BatchRun.shape {items : List EmbedWork} {events : List BatchEvent}
    (ran : BatchRun items events) :
    events = [] ∨ ∃ answer results writes,
      events = ⟨.embedBatch (items.map EmbedWork.content), answer⟩ ::
        (singles (items.map EmbedWork.content) results ++ writes) ∧
      (results = [] ∨ FallsBack items.length answer ∧ results.length = items.length) ∧
      (∀ event ∈ writes, WritesBack event) ∧
      (writes.flatMap writtenKeys).Sublist (items.map EmbedWork.key) := by
  have released : ∀ item event, Released item event → writtenKeys event = [] :=
    fun _ _ => writtenKeys_of_released
  have written : ∀ item : EmbedWork, ∀ embedding answer, (writtenKeys ⟨.setEmbedding item.id
      embedding item.expectedRevision, answer⟩).Sublist [item.key] :=
    fun _ _ _ => List.Sublist.refl _
  cases ran with
  | idle => exact Or.inl rfl
  | @answered _ embeddings applied complete writes =>
      exact Or.inr ⟨.ok embeddings, [], applied, by simp [singles], Or.inl rfl, writes.writesBack,
        writes.flatMap_sublist released written⟩
  | individually fallsBack complete writes =>
      exact Or.inr ⟨_, _, _, rfl, Or.inr ⟨fallsBack, complete⟩, writes.writesBack,
        writes.flatMap_sublist released written⟩
  | @failed _ error releases passing isReleased =>
      refine Or.inr ⟨.error error, [], releases, by simp [singles], Or.inl rfl,
        writesBack_of_released isReleased, ?_⟩
      rw [flatMap_releases released isReleased]
      exact List.nil_sublist _

theorem flatMap_writes {β : Type} {asked : BatchEvent → List β} {writes : List BatchEvent}
    (quiet : ∀ event, WritesBack event → asked event = [])
    (writesBack : ∀ event ∈ writes, WritesBack event) : writes.flatMap asked = [] :=
  List.flatMap_eq_nil_iff.mpr fun event eventMem => quiet event (writesBack event eventMem)

theorem WritesBack.asks_nothing {event : BatchEvent} (writesBack : WritesBack event) :
    batchTexts event = [] ∧ singleTexts event = [] := by
  obtain ⟨request, answer⟩ := event
  cases request <;> first | exact ⟨rfl, rfl⟩ | cases writesBack

theorem singleTexts_singles {contents : List String}
    {results : List (Except EmbeddingError Embedding)} :
    ((singles contents results).flatMap singleTexts).Sublist contents := by
  induction contents generalizing results with
  | nil => exact .slnil
  | cons content rest inductionHypothesis =>
      cases results with
      | nil => exact List.nil_sublist _
      | cons result results => exact inductionHypothesis.cons_cons content

theorem quiet_singles {β : Type} {asked : BatchEvent → List β}
    (quiet : ∀ content result, asked ⟨.embed content, result⟩ = []) (contents : List String)
    (results : List (Except EmbeddingError Embedding)) :
    (singles contents results).flatMap asked = [] := by
  rw [List.flatMap_eq_nil_iff]
  intro event eventMem
  obtain ⟨content, result, rfl⟩ := exists_of_mem_singles eventMem
  exact quiet content result

/-- A run asks for each of its items at most once in a batch, at most once alone,
and writes it at most once. -/
theorem BatchRun.atMostOnce {items : List EmbedWork} {events : List BatchEvent}
    (ran : BatchRun items events) :
    (events.flatMap batchTexts).Sublist (items.map EmbedWork.content) ∧
      (events.flatMap singleTexts).Sublist (items.map EmbedWork.content) ∧
      (events.flatMap writtenKeys).Sublist (items.map EmbedWork.key) := by
  rcases ran.shape with rfl | ⟨answer, results, writes, rfl, _, writesBack, written⟩
  · exact ⟨List.nil_sublist _, List.nil_sublist _, List.nil_sublist _⟩
  · have texts := flatMap_writes (fun _ back => (WritesBack.asks_nothing back).1) writesBack
    have single := flatMap_writes (fun _ back => (WritesBack.asks_nothing back).2) writesBack
    simp only [List.flatMap_cons, List.flatMap_append, texts, single, List.append_nil]
    refine ⟨?_, singleTexts_singles, ?_⟩
    · rw [quiet_singles fun _ _ => rfl, List.append_nil]
      exact List.Sublist.refl _
    · rw [quiet_singles fun _ _ => rfl, List.nil_append]
      exact written

/-- After a batch request that failed for another reason than rejection, a run
asks for no single item. -/
theorem BatchRun.no_singles {items : List EmbedWork} {events : List BatchEvent}
    (ran : BatchRun items events) {texts : List String} {error : EmbeddingError}
    (failed : ⟨.embedBatch texts, .error error⟩ ∈ events) (passing : error.isPermanent = false) :
    events.flatMap singleTexts = [] := by
  rcases ran.shape with rfl | ⟨answer, results, writes, rfl, fellBack, writesBack, _⟩
  · rfl
  · have single := flatMap_writes (fun _ back => (WritesBack.asks_nothing back).2) writesBack
    rcases fellBack with rfl | ⟨fallsBack, _⟩
    · simp [singles, single, singleTexts]
    · rcases List.mem_cons.mp failed with same | later
      · cases same
        rw [FallsBack, passing] at fallsBack
        cases fallsBack
      · rcases List.mem_append.mp later with isSingle | isWrite
        · obtain ⟨content, result, other⟩ := exists_of_mem_singles isSingle
          cases other
        · cases writesBack _ isWrite

/-! ## Events without effect -/

theorem quiet_of_no_effect {event : BatchEvent} (quiet : isEffect event = false) :
    batchTexts event = [] ∧ singleTexts event = [] ∧ writtenKeys event = [] := by
  obtain ⟨request, answer⟩ := event
  cases request <;> first | exact ⟨rfl, rfl, rfl⟩ | cases quiet

theorem settlement_of_no_effect {event : BatchEvent} (quiet : isEffect event = false) :
    settlement event = none := by
  obtain ⟨request, answer⟩ := event
  cases request <;> first | rfl | cases quiet

theorem flatMap_filter_isEffect {β : Type} {asked : BatchEvent → List β}
    (quiet : ∀ event, isEffect event = false → asked event = []) (events : List BatchEvent) :
    (events.filter isEffect).flatMap asked = events.flatMap asked := by
  induction events with
  | nil => rfl
  | cons event rest inductionHypothesis =>
      cases effect : isEffect event with
      | true =>
          rw [List.filter_cons_of_pos effect, List.flatMap_cons, List.flatMap_cons,
            inductionHypothesis]
      | false =>
          rw [List.filter_cons_of_neg (by simp [effect]), List.flatMap_cons, quiet event effect,
            inductionHypothesis, List.nil_append]

theorem filterMap_filter_isEffect (events : List BatchEvent) :
    (events.filter isEffect).filterMap settlement = events.filterMap settlement := by
  rw [List.filterMap_filter]
  congr 1
  funext event
  cases effect : isEffect event with
  | true => rfl
  | false => rw [settlement_of_no_effect effect]; rfl

/-! ## The answers of the store -/

/-- Releasing a claim does not fail. -/
theorem releaseEmbeddingClaim_ok (id : MemoryId) (revision : Int) (token : String) (db : Db) :
    ∃ released next, releaseEmbeddingClaim id revision token db = .ok (released, next) :=
  ⟨_, _, rfl⟩

theorem EngineProcess.release_succeeds {process : EngineProcess} {world after : BatchWorld}
    {choice : BatchChoice} {event : BatchEvent}
    (answered : process.answer world event.1 choice = some (event.2, after)) :
    ReleaseSucceeds event := by
  rintro id revision token error rfl
  obtain ⟨released, next, ran⟩ := releaseEmbeddingClaim_ok id revision token world.db
  cases choice with
  | determined =>
      simp only [EngineProcess.answer, ran] at answered
      cases answered
  | spawn accepted => cases answered
  | batch result => cases answered
  | single result => cases answered

/-- When a call has scheduled claimed work and all its tasks have ended, whatever
the provider, the coordinator and the rest of the server did meanwhile: every
item was settled exactly once, in a step that stored its embedding or after which
its claim was gone, every result was applied to its own item, and a batch that
failed without being rejected asked for no single item. -/
theorem embedding_batch_accounting [Host] {process : EngineProcess} {chunkSize : Nat}
    {rejectedSpawn : RejectedSpawn} {work : List EmbedWork}
    (claimed : ∀ item ∈ work, item.claimToken.isSome) {world : BatchWorld}
    (indexOk : IndexOk world.db)
    {actions : List (PoolAction BatchChoice BatchInterference)}
    {pool : Pool BatchRequest BatchRequest.Answer BatchWorld}
    (runEq : run (poolStep process.surroundings)
      (Pool.start world (scheduler chunkSize rejectedSpawn work)) actions = some pool)
    (finished : pool.Finished) :
    (∃ settlements, List.Forall₂ EmbedWork.SettledBy work settlements ∧
      (pool.log.filterMap settlement).Perm settlements) ∧
    (∀ position event, pool.log[position]? = some event → ∃ before after,
      Pool.LoggedBy process.surroundings
        (Pool.start world (scheduler chunkSize rejectedSpawn work)) actions position event before
        after ∧ StoreEffect event before.shared.db after.shared.db) ∧
    (pool.log.flatMap batchTexts).Subperm (work.map EmbedWork.content) ∧
    (pool.log.flatMap singleTexts).Subperm (work.map EmbedWork.content) ∧
    (pool.log.flatMap writtenKeys).Subperm (work.map EmbedWork.key) ∧
    ∃ (skipped : List EmbedWork) (releases : List BatchEvent)
      (runs : List (List EmbedWork × List BatchEvent)),
      (skipped ++ runs.flatMap Prod.fst).Perm work ∧
      (pool.log.filter isEffect).Perm (releases ++ runs.flatMap Prod.snd) ∧
      List.Forall₂ Released skipped releases ∧
      ∀ items events, (items, events) ∈ runs → BatchRun items events ∧
        ∀ texts error, ⟨.embedBatch texts, .error error⟩ ∈ events → error.isPermanent = false →
          events.flatMap singleTexts = [] := by
  obtain ⟨account, explains⟩ := explained_of_run claimed runEq finished
  have succeed : ∀ event ∈ pool.log.filter isEffect, ReleaseSucceeds event := by
    intro event eventMem
    obtain ⟨position, found⟩ := List.getElem?_of_mem (List.mem_of_mem_filter eventMem)
    obtain ⟨before, after, logged⟩ := Pool.exists_loggedBy runEq found
    obtain ⟨choice, answered⟩ := logged.answered
    exact process.release_succeeds answered
  obtain ⟨settlements, settled, same⟩ := explains.settles succeed
  have items := explains.items
  rw [List.append_nil] at items
  refine ⟨⟨settlements, settled, ?_⟩,
    fun _ _ found => process.storeEffect_of_run indexOk runEq found, ?_, ?_, ?_, account.skipped,
    account.releases, account.runs, items, explains.effects, explains.released,
    fun batch events ran => ?_⟩
  · rwa [filterMap_filter_isEffect] at same
  · rw [← flatMap_filter_isEffect fun _ quiet => (quiet_of_no_effect quiet).1]
    exact explains.subperm (fun _ _ released => (released.writesBack).asks_nothing.1)
      fun _ _ ran => ran.atMostOnce.1
  · rw [← flatMap_filter_isEffect fun _ quiet => (quiet_of_no_effect quiet).2.1]
    exact explains.subperm (fun _ _ released => (released.writesBack).asks_nothing.2)
      fun _ _ ran => ran.atMostOnce.2.1
  · rw [← flatMap_filter_isEffect fun _ quiet => (quiet_of_no_effect quiet).2.2]
    exact explains.subperm (fun _ _ => writtenKeys_of_released) fun _ _ ran => ran.atMostOnce.2.2
  · have batchRan := explains.ran _ ran
    exact ⟨batchRan, fun _ _ failed passing => batchRan.no_singles failed passing⟩

/-- A store with one memory without an embedding. -/
def unembeddedStore : Db :=
  (@storeStep asciiHost (Db.empty 1) ⟨⟨1, none⟩, 0,
    .store ⟨Memory.plain ⟨1⟩ "agent" "text" 0, none⟩ none⟩).getD (Db.empty 1)

/-- The same store, with the memory claimed. -/
def claimedStore : Db :=
  { unembeddedStore with
    memories := unembeddedStore.memories.updateWhere (fun _ => true)
      (fun row => { row with embeddingClaimedAt := some 1, embeddingClaimToken := some "first" })
      fun _ => rfl }

theorem indexOk_claimedStore : IndexOk claimedStore := by
  have unembedded : IndexOk unembeddedStore := by
    rw [unembeddedStore]
    cases stepEq : @storeStep asciiHost (Db.empty 1)
      ⟨⟨1, none⟩, 0, .store ⟨Memory.plain ⟨1⟩ "agent" "text" 0, none⟩ none⟩ with
    | none => exact indexOk_empty 1
    | some db => exact (@storeStep_sustains asciiHost _ _ _ stepEq (indexOk_empty 1)).1
  exact unembedded.of_indexSide (Db.indexSide_updateWhere fun _ => rfl)

/-- The claims of that memory and of one that is gone. -/
def storedAndGone : List EmbedWork :=
  [⟨⟨1⟩, "text", 0, some "first"⟩, ⟨⟨2⟩, "other", 0, some "second"⟩]

/-- Both are embedded one by one after the batch was rejected; the second write
finds no memory. -/
def rejectedBatch : List (PoolAction BatchChoice BatchInterference) :=
  [.advance 0 .determined, .advance 0 .determined, .advance 0 (.spawn true),
    .advance 1 (.batch (.error (.permanent "bad input"))), .advance 1 (.single (.ok [.finite 1])),
    .advance 1 (.single (.ok [.finite 1])), .advance 1 .determined, .advance 1 .determined,
    .advance 1 .determined, .advance 1 .determined, .advance 1 .determined]

theorem embedding_batch_accounting_rejected :
    ∃ pool, run (poolStep (@EngineProcess.surroundings asciiHost
          ⟨⟨1, none⟩, ⟨"p", "e", "m", 1⟩⟩))
        (Pool.start ⟨claimedStore, [], []⟩ (scheduler 2 .releaseClaims storedAndGone))
        rejectedBatch = some pool ∧
      pool.log.filterMap settlement = [.stored ⟨1⟩ 0, .released ⟨2⟩ 0 "second"] ∧
      (∃ settlements, List.Forall₂ EmbedWork.SettledBy storedAndGone settlements ∧
        (pool.log.filterMap settlement).Perm settlements) ∧
      ∃ before after : Db,
        WrittenBack ⟨1⟩ ⟨[.finite 1], "text", ⟨"p", "e", "m", 1⟩⟩ 0 before after := by
  refine ⟨_, rfl, ?_⟩
  have accounted := @embedding_batch_accounting asciiHost ⟨⟨1, none⟩, ⟨"p", "e", "m", 1⟩⟩ 2
    .releaseClaims storedAndGone (by decide) ⟨claimedStore, [], []⟩ indexOk_claimedStore
    rejectedBatch _ rfl (List.forall_mem_cons.mpr ⟨rfl, List.forall_mem_singleton.mpr rfl⟩)
  refine ⟨rfl, accounted.1, ?_⟩
  obtain ⟨before, after, _, effect⟩ := accounted.2.1 6
    ⟨.setEmbedding ⟨1⟩ ⟨[.finite 1], "text", ⟨"p", "e", "m", 1⟩⟩ 0, .ok ()⟩ rfl
  exact ⟨before.shared.db, after.shared.db, effect⟩

end LocalHold
