import LocalHold.Ui.Delivery

/-!
# Listings under way

Every listing carries the generation it was asked for, and only the result of
the current generation is shown.  While the interface waits for rows exactly
one such listing is under way, and otherwise none is.
-/

namespace LocalHold

open Transition Transition.EventLoop

/-! ## Counting listings -/

/-- Listings of one generation and their results count. -/
def listingWeight (generation : Nat) : Weight DataTask DataMsg where
  job
    | .list _ asked => if asked = generation then 1 else 0
    | .search _ _ _ asked => if asked = generation then 1 else 0
    | .catalog .. | .save .. | .refreshDetail .. | .delete .. => 0
  message
    | .rows _ _ asked => if asked = generation then 1 else 0
    | .failed _ asked => if asked = generation then 1 else 0
    | .contextCatalog .. | .contextCatalogFailed .. | .updated .. | .updatedInvisible .. => 0
    | .updatedUnrefreshed .. | .missing .. | .deleted .. | .mutationFailed .. => 0

/-- The listings of a generation that are under way: none of a later one, and
of the current one the awaited listing. -/
structure App.Awaits (generation : Nat) (app : App) (_ : Timeline) (load : Nat) : Prop where
  bounded : app.generation < usizeRange
  later : app.generation < generation → load = 0
  current : app.generation = generation → generation < usizeRange - 1 →
    load = if app.loading then 1 else 0

/-- Effects that are no listings. -/
def Listless (effects : DataEffects) : Prop :=
  ∀ generation, (listingWeight generation).total effects = 0

/-- What a handler does to the listings: nothing, one more, or it drops the
awaited one. -/
inductive Asks (app : App) (answer : App × DataEffects) : Prop where
  | still (generation : answer.1.generation = app.generation)
      (loading : answer.1.loading = app.loading) (listless : Listless answer.2)
  | asked (generation : answer.1.generation = saturatingAdd app.generation 1)
      (loading : answer.1.loading = true)
      (one : ∀ generation, (listingWeight generation).total answer.2 =
        if answer.1.generation = generation then 1 else 0)
  | dropped (generation : answer.1.generation = saturatingAdd app.generation 1)
      (loading : answer.1.loading = false) (listless : Listless answer.2)

theorem Asks.keeps {app : App} {answer : App × DataEffects} {timeline : Timeline}
    {generation load : Nat} (asks : Asks app answer) (awaits : app.Awaits generation timeline load) :
    answer.1.Awaits generation timeline
      (load + (listingWeight generation).total answer.2) := by
  rcases awaits with ⟨bounded, later, current⟩
  cases asks with
  | still same loading listless =>
      rw [listless generation]
      constructor
      · rw [same]
        exact bounded
      · rw [same]
        exact later
      · rw [same, loading]
        exact current
  | asked raised loading one =>
      rw [one generation]
      unfold saturatingAdd at raised
      constructor
      · omega
      · intro below
        have nothing := later (by omega)
        rw [nothing, if_neg (by omega)]
      · intro here room
        have nothing := later (by omega)
        rw [nothing, loading, if_pos here]
        rfl
  | dropped raised loading listless =>
      rw [listless generation]
      unfold saturatingAdd at raised
      constructor
      · omega
      · intro below
        exact later (by omega)
      · intro here room
        rw [loading]
        exact later (by omega)

/-! ## Refreshing -/

theorem listless_nil : Listless [] :=
  fun _ => rfl

theorem listless_catalog (generation : Nat) : Listless [.spawn (.catalog generation)] :=
  fun _ => rfl

theorem total_spawnList (app : App) (generation : Nat) :
    (listingWeight generation).total app.spawnList =
      if app.generation = generation then 1 else 0 := by
  unfold App.spawnList
  split <;> rfl

theorem total_spawnSearch (app : App) (generation : Nat) :
    (listingWeight generation).total app.spawnSearch =
      if app.generation = generation then 1 else 0 := by
  unfold App.spawnSearch
  split <;> rfl

theorem asks_refresh {app next : App} (same : next.generation = app.generation) :
    Asks app next.refresh := by
  refine .asked ?_ rfl ?_
  · exact congrArg (fun generation => saturatingAdd generation 1) same
  · intro generation
    unfold App.refresh
    dsimp only
    split
    · exact total_spawnList _ generation
    · exact total_spawnSearch _ generation

theorem asks_refreshContextCatalog {app next : App} (same : next.generation = app.generation)
    (loading : next.loading = app.loading) : Asks app next.refreshContextCatalog :=
  .still same loading (listless_catalog _)

theorem Asks.after {app next : App} {first effects : DataEffects} (quiet : Listless first)
    (asks : Asks app (next, effects)) : Asks app (next, first ++ effects) := by
  have total : ∀ generation, (listingWeight generation).total (first ++ effects) =
      (listingWeight generation).total effects := by
    intro generation
    rw [Weight.total_append, quiet generation, Nat.zero_add]
  cases asks with
  | still same loading listless =>
      exact .still same loading fun generation => (total generation).trans (listless generation)
  | asked raised loading one =>
      exact .asked raised loading fun generation => (total generation).trans (one generation)
  | dropped raised loading listless =>
      exact .dropped raised loading fun generation => (total generation).trans (listless generation)

theorem asks_refreshAll {app next : App} (same : next.generation = app.generation) :
    Asks app next.refreshAll := by
  have listing : Asks app next.refreshContextCatalog.1.refresh := asks_refresh same
  exact Asks.after (listless_catalog _) listing

theorem asks_still {app next : App} (same : next.generation = app.generation)
    (loading : next.loading = app.loading) : Asks app (next, []) :=
  .still same loading listless_nil

/-! ## Keys -/

section Keys

variable (app : App) (engine : EngineAnswers)

theorem asks_requestQuit : Asks app (app.requestQuit, []) := by
  unfold App.requestQuit
  split <;> exact asks_still rfl rfl

theorem asks_toggleCursorContext : Asks app (app.toggleCursorContext engine) := by
  unfold App.toggleCursorContext
  split
  · exact asks_refresh rfl
  · dsimp only
    split
    · exact asks_still rfl rfl
    · split
      · exact asks_refresh rfl
      · split
        · exact asks_still rfl rfl
        · exact asks_refresh rfl

theorem asks_toggleContextDescendants : Asks app (app.toggleContextDescendants engine) := by
  unfold App.toggleContextDescendants
  dsimp only
  split
  · exact asks_refresh rfl
  · split
    · exact asks_still rfl rfl
    · exact asks_refresh rfl

/-- A handler that leaves the listings alone. -/
def Unasked (next app : App) : Prop :=
  next.generation = app.generation ∧ next.loading = app.loading

theorem unasked_loadDetailAudit (id : MemoryId) :
    Unasked (app.loadDetailAudit engine id).1 app := by
  unfold App.loadDetailAudit
  split <;> exact ⟨rfl, rfl⟩

theorem unasked_loadDetailMetadata (id : MemoryId) :
    Unasked (app.loadDetailMetadata engine id).1 app := by
  unfold App.loadDetailMetadata
  split <;> exact ⟨rfl, rfl⟩

theorem unasked_loadDetailContexts (id : MemoryId) :
    Unasked (app.loadDetailContexts engine id).1 app := by
  unfold App.loadDetailContexts
  split <;> exact ⟨rfl, rfl⟩

theorem Unasked.trans {last next app : App} (second : Unasked last next)
    (first : Unasked next app) : Unasked last app :=
  ⟨second.1.trans first.1, second.2.trans first.2⟩

theorem unasked_openDetail : Unasked (app.openDetail engine) app := by
  unfold App.openDetail
  split
  · exact ⟨rfl, rfl⟩
  · rename_i row _
    dsimp only
    split
    · rename_i found _
      have audited := unasked_loadDetailAudit app engine row.memory.id
      generalize app.loadDetailAudit engine row.memory.id = history at audited ⊢
      rcases history with ⟨afterAudit, audit⟩
      dsimp only at audited ⊢
      cases found.sanitizeForWire.wasRedacted with
      | true => exact audited
      | false =>
          have loaded := unasked_loadDetailMetadata afterAudit engine row.memory.id
          simp only [Bool.false_eq_true, if_false]
          generalize afterAudit.loadDetailMetadata engine row.memory.id = description
            at loaded ⊢
          rcases description with ⟨afterMetadata, metadata⟩
          have opened := unasked_loadDetailContexts afterMetadata engine row.memory.id
          exact (opened.trans loaded).trans audited
    · exact ⟨rfl, rfl⟩
    · exact ⟨rfl, rfl⟩

theorem unasked_openContextManager : Unasked (app.openContextManager engine) app := by
  unfold App.openContextManager
  split
  · exact ⟨rfl, rfl⟩
  · split <;> exact ⟨rfl, rfl⟩

theorem unasked_moveSelection (down : Bool) : Unasked (app.moveSelection down) app := by
  unfold App.moveSelection
  split <;> exact ⟨rfl, rfl⟩

theorem unasked_jumpSelection (top : Bool) : Unasked (app.jumpSelection top) app := by
  unfold App.jumpSelection
  split <;> exact ⟨rfl, rfl⟩

theorem Unasked.asks {next app : App} (unasked : Unasked next app) : Asks app (next, []) :=
  asks_still unasked.1 unasked.2

theorem asks_keyBrowse (key : KeyEvent) : Asks app (app.keyBrowse engine key) := by
  have still : Asks app (app, []) := asks_still rfl rfl
  unfold App.keyBrowse
  dsimp only
  split
  case h_1 => exact asks_requestQuit app
  case h_2 | h_3 | h_4 | h_5 | h_6 | h_7 | h_16 => exact asks_still rfl rfl
  case h_8 | h_9 | h_10 | h_11 => exact (unasked_moveSelection app _).asks
  case h_12 | h_13 | h_14 | h_15 => exact (unasked_jumpSelection app _).asks
  case h_17 =>
    unfold App.cycleMode
    dsimp only
    split
    · exact asks_still rfl rfl
    · exact asks_refresh rfl
  case h_18 => exact asks_refreshAll rfl
  case h_19 =>
    split
    · exact asks_toggleCursorContext app engine
    · exact still
  case h_20 =>
    split
    · exact asks_refresh rfl
    · exact still
  case h_21 =>
    split
    · exact asks_toggleContextDescendants app engine
    · exact still
  case h_22 =>
    split
    · exact asks_refreshContextCatalog rfl rfl
    · exact still
  case h_23 =>
    split
    · exact (unasked_openContextManager app engine).asks
    · exact still
  case h_24 =>
    split
    · exact still
    · exact asks_refresh rfl
  case h_25 =>
    unfold App.openOrFocus
    split
    · exact asks_still rfl rfl
    · exact (unasked_openDetail app engine).asks
  case h_26 => exact still

variable {app engine}

theorem asks_keySearch {answer : App × DataEffects} {key : KeyEvent}
    (handled : app.keySearch key = .ok answer) : Asks app answer := by
  unfold App.keySearch at handled
  split at handled
  · cases handled
    exact asks_still rfl rfl
  · cases handled
    exact asks_refresh rfl
  · cases handled
    exact asks_still rfl rfl
  · split at handled
    · cases handled
      exact asks_still rfl rfl
    · split at handled
      · cases handled
        exact asks_still rfl rfl
      · rcases Checked.bind_eq_ok.mp handled with ⟨query, _, done⟩
        cases done
        exact asks_still rfl rfl
  · cases handled
    exact asks_still rfl rfl

theorem unasked_beginDelete : Unasked app.beginDelete app := by
  unfold App.beginDelete
  split
  · exact ⟨rfl, rfl⟩
  · split
    · exact ⟨rfl, rfl⟩
    · split
      · exact ⟨rfl, rfl⟩
      · split <;> exact ⟨rfl, rfl⟩

theorem unasked_beginEdit [AppHost] {next : App} (handled : app.beginEdit = .ok next) :
    Unasked next app := by
  unfold App.beginEdit at handled
  split at handled
  · cases handled
    exact ⟨rfl, rfl⟩
  · split at handled
    · cases handled
      exact ⟨rfl, rfl⟩
    · split at handled
      · cases handled
        exact ⟨rfl, rfl⟩
      · split at handled
        · cases handled
          exact ⟨rfl, rfl⟩
        · rcases Checked.bind_eq_ok.mp handled with ⟨draft, _, done⟩
          cases done
          exact ⟨rfl, rfl⟩

theorem asks_keyDetail [AppHost] {answer : App × DataEffects} {key : KeyEvent}
    (handled : app.keyDetail key = .ok answer) : Asks app answer := by
  unfold App.keyDetail at handled
  split at handled
  case h_4 =>
    rcases Checked.bind_eq_ok.mp handled with ⟨next, begun, done⟩
    cases done
    exact (unasked_beginEdit begun).asks
  case h_5 =>
    cases handled
    exact unasked_beginDelete.asks
  all_goals
    cases handled
    exact asks_still rfl rfl

/-- A mutation makes the listings under way stale. -/
theorem asks_beginMutation (status : Status) {task : DataTask}
    (other : ∀ generation, (listingWeight generation).job task = 0) :
    Asks app (app.beginMutation status, [.spawn task]) := by
  refine .dropped rfl rfl ?_
  intro generation
  exact other generation

theorem asks_spawnSave [AppHost] : Asks app app.spawnSave := by
  unfold App.spawnSave
  split
  · exact asks_still rfl rfl
  · split
    · exact asks_still rfl rfl
    · split
      · exact asks_still rfl rfl
      · exact asks_still rfl rfl
      · split
        · exact asks_still rfl rfl
        · split
          · exact asks_still rfl rfl
          · exact asks_beginMutation _ fun _ => rfl

theorem asks_spawnDelete : Asks app app.spawnDelete := by
  unfold App.spawnDelete
  split
  · exact asks_still rfl rfl
  · split
    · exact asks_still rfl rfl
    · split
      · exact asks_still rfl rfl
      · exact asks_beginMutation _ fun _ => rfl

theorem asks_keyEdit [AppHost] {answer : App × DataEffects} {key : KeyEvent}
    (handled : app.keyEdit key = .ok answer) : Asks app answer := by
  unfold App.keyEdit at handled
  split at handled
  · cases handled
    exact asks_still rfl rfl
  · split at handled
    · cases handled
      exact asks_spawnSave
    · split at handled
      · cases handled
        exact asks_still rfl rfl
      · split at handled
        · split at handled
          · rcases Checked.bind_eq_ok.mp handled with ⟨scrolled, _, done⟩
            cases done
            exact asks_still rfl rfl
          · cases handled
            exact asks_still rfl rfl
        · rcases Checked.bind_eq_ok.mp handled with ⟨edited, _, handled⟩
          rcases Checked.bind_eq_ok.mp handled with ⟨scrolled, _, done⟩
          cases done
          exact asks_still rfl rfl

theorem asks_keyConfirmDelete (key : KeyEvent) : Asks app (app.keyConfirmDelete key) := by
  unfold App.keyConfirmDelete
  split
  · exact asks_still rfl rfl
  · split
    · exact asks_spawnDelete
    · exact asks_still rfl rfl
    · exact asks_still rfl rfl
    · exact asks_still rfl rfl

theorem unasked_keyConfirmDiscard (key : KeyEvent) : Unasked (app.keyConfirmDiscard key) app := by
  unfold App.keyConfirmDiscard
  split <;> exact ⟨rfl, rfl⟩

theorem unasked_beginContextManagerEdit [AppHost] : Unasked app.beginContextManagerEdit app := by
  unfold App.beginContextManagerEdit
  split
  · exact ⟨rfl, rfl⟩
  · dsimp only
    split
    · exact ⟨rfl, rfl⟩
    · split <;> exact ⟨rfl, rfl⟩

theorem unasked_reloadContextManager : Unasked (app.reloadContextManager engine) app := by
  unfold App.reloadContextManager
  split
  · exact ⟨rfl, rfl⟩
  · split <;> exact ⟨rfl, rfl⟩

theorem unasked_keyContextManager [AppHost] (key : KeyEvent) :
    Unasked (app.keyContextManager engine key) app := by
  unfold App.keyContextManager
  split
  · exact ⟨rfl, rfl⟩
  · split
    case h_13 => exact unasked_beginContextManagerEdit
    case h_14 => exact unasked_reloadContextManager
    all_goals exact ⟨rfl, rfl⟩

theorem asks_saveContextManagerEdit : Asks app (app.saveContextManagerEdit engine) := by
  unfold App.saveContextManagerEdit
  split
  · exact asks_still rfl rfl
  · split
    · exact asks_still rfl rfl
    · split
      · exact asks_still rfl rfl
      · dsimp only
        split
        · exact asks_still rfl rfl
        · split
          · exact asks_refreshAll rfl
          · exact asks_refreshAll rfl

theorem asks_keyContextManagerEdit {answer : App × DataEffects} {key : KeyEvent}
    (handled : app.keyContextManagerEdit engine key = .ok answer) : Asks app answer := by
  unfold App.keyContextManagerEdit at handled
  split at handled
  · cases handled
    exact asks_still rfl rfl
  · split at handled
    · cases handled
      exact asks_saveContextManagerEdit
    · split at handled
      · split at handled
        · cases handled
          exact asks_still rfl rfl
        · cases handled
          exact asks_still rfl rfl
      · split at handled
        · cases handled
          exact asks_still rfl rfl
        · split at handled
          · cases handled
            exact asks_still rfl rfl
          · rcases Checked.bind_eq_ok.mp handled with ⟨edited, _, done⟩
            cases done
            exact asks_still rfl rfl

theorem unasked_keyConfirmContextDiscard (key : KeyEvent) :
    Unasked (app.keyConfirmContextDiscard key) app := by
  unfold App.keyConfirmContextDiscard
  split <;> exact ⟨rfl, rfl⟩

theorem asks_onEvent [AppHost] {answer : App × DataEffects} {event : TerminalEvent}
    (handled : app.onEvent engine event = .ok answer) : Asks app answer := by
  unfold App.onEvent at handled
  split at handled
  · cases handled
    exact asks_still rfl rfl
  split at handled
  case isFalse =>
    cases handled
    exact asks_still rfl rfl
  split at handled
  · cases handled
    exact asks_requestQuit app
  unfold App.onKey at handled
  split at handled
  · cases handled
    exact asks_keyBrowse app engine _
  · exact asks_keySearch handled
  · exact asks_keyDetail handled
  · exact asks_keyEdit handled
  · cases handled
    exact asks_keyConfirmDelete _
  · cases handled
    exact (unasked_keyConfirmDiscard _).asks
  · cases handled
    exact (unasked_keyContextManager _).asks
  · exact asks_keyContextManagerEdit handled
  · cases handled
    exact (unasked_keyConfirmContextDiscard _).asks

end Keys

/-! ## Messages -/

section Messages

variable {app : App}

theorem asks_removeMemoryFromView (id : MemoryId) (status : Status) (refreshCatalog : Bool) :
    Asks app (app.removeMemoryFromView id status refreshCatalog) := by
  unfold App.removeMemoryFromView
  dsimp only
  split
  · exact asks_refreshContextCatalog rfl rfl
  · exact asks_still rfl rfl

/-- A message that is no result of a listing. -/
theorem asks_onData {message : DataMsg}
    (other : ∀ generation, (listingWeight generation).message message = 0) :
    Asks app (app.onData message) := by
  have still : Asks app (app, []) := asks_still rfl rfl
  cases message with
  | rows rows mode generation =>
      have counted := other generation
      simp [listingWeight] at counted
  | failed text generation =>
      have counted := other generation
      simp [listingWeight] at counted
  | contextCatalog records policy total warning generation =>
      simp only [App.onData]
      split
      · split
        · exact asks_refresh rfl
        · exact asks_still rfl rfl
      · exact still
  | contextCatalogFailed text generation =>
      simp only [App.onData]
      split
      · exact asks_still rfl rfl
      · exact still
  | updated memory metadata audit contexts refreshWarning generation =>
      simp only [App.onData]
      split
      · unfold App.applyUpdatedMemory
        dsimp only
        split
        · exact asks_still rfl rfl
        · exact asks_refresh rfl
      · exact still
  | updatedInvisible id generation | updatedUnrefreshed id text generation
  | missing id generation | deleted id generation =>
      simp only [App.onData]
      split
      · exact asks_removeMemoryFromView _ _ _
      · exact still
  | mutationFailed text generation =>
      simp only [App.onData]
      split
      · exact asks_still rfl rfl
      · exact still

/-- The result of a listing is taken when it is the awaited one, and else
dropped. -/
theorem awaits_result {message : DataMsg} {asked generation load : Nat} {timeline : Timeline}
    (result : (∃ rows mode, message = .rows rows mode asked) ∨
      ∃ text, message = .failed text asked)
    (awaits : app.Awaits generation timeline
      (load + (listingWeight generation).message message)) :
    (app.onData message).1.Awaits generation timeline
      (load + (listingWeight generation).total (app.onData message).2) := by
  have weight : (listingWeight generation).message message =
      if asked = generation then 1 else 0 := by
    rcases result with ⟨rows, mode, rfl⟩ | ⟨text, rfl⟩ <;> rfl
  rw [weight] at awaits
  rcases awaits with ⟨bounded, later, current⟩
  by_cases stale : asked = app.generation
  · have taken : (app.onData message).1.generation = app.generation ∧
        (app.onData message).1.loading = false ∧ (app.onData message).2 = [] := by
      rcases result with ⟨rows, mode, rfl⟩ | ⟨text, rfl⟩
      · have applied : app.onData (.rows rows mode asked) = (app.applyRows rows mode, []) :=
          if_pos stale
        rw [applied]
        exact ⟨rfl, rfl, rfl⟩
      · have failed : app.onData (.failed text asked) = ({ app with
            executedMode := none, loading := false, status := .notHeld text }, []) :=
          if_pos stale
        rw [failed]
        exact ⟨rfl, rfl, rfl⟩
    rcases taken with ⟨same, loaded, nothing⟩
    rw [nothing, Weight.total_nil, Nat.add_zero]
    constructor
    · rw [same]
      exact bounded
    · intro below
      rw [same] at below
      have := later below
      omega
    · intro here room
      rw [same] at here
      have counted := current here room
      rw [if_pos (stale.trans here)] at counted
      rw [loaded]
      simp only [Bool.false_eq_true, if_false]
      split at counted
      · omega
      · omega
  · have dropped : app.onData message = (app, []) := by
      rcases result with ⟨rows, mode, rfl⟩ | ⟨text, rfl⟩
      · simp only [App.onData, if_neg stale]
      · simp only [App.onData, if_neg stale]
    rw [dropped, Weight.total_nil, Nat.add_zero]
    constructor
    · exact bounded
    · intro below
      have := later below
      omega
    · intro here room
      have counted := current here room
      rw [if_neg (fun same => stale (same.trans here.symm))] at counted
      exact counted

end Messages

/-! ## Sessions -/

section Sessions

variable [AppHost]

/-- No part of a task changes what it counts as. -/
theorem listingWeight_performTask {timeline next : Timeline} {task : DataTask}
    {answer : TaskAnswer} {progress : PartResult DataTask DataMsg} (generation : Nat)
    (ran : performTask timeline task answer = some (next, progress)) :
    (listingWeight generation).progress progress = (listingWeight generation).job task := by
  unfold performTask at ran
  split at ran
  case h_5 =>
    cases ran
    unfold catalogMessage
    split <;> rfl
  case h_7 id expectedRevision edit principal asked handle now =>
    have saved := Option.some.inj ran
    unfold performSave at saved
    split at saved
    · cases saved
      rfl
    · cases saved
      split <;> rfl
  case h_8 =>
    cases ran
    unfold refreshUpdatedDetail
    split <;> rfl
  case h_10 id expectedRevision principal asked _ now =>
    have deleted := Option.some.inj ran
    unfold performDelete at deleted
    split at deleted
    · cases deleted
      rfl
    · cases deleted
      split <;> rfl
  case h_11 => cases ran
  all_goals
    cases ran
    rfl

/-- The loop keeps the account of listings. -/
theorem uiLoop_awaits (generation : Nat) :
    uiLoop.Keeps (listingWeight generation) (App.Awaits generation)
      fun _ _ => ⟨fun _ => True, fun _ => True⟩ := by
  have anything : ∀ effect : Effect DataTask DataMsg,
      (⟨fun _ => True, fun _ => True⟩ : Marks DataTask DataMsg).effect effect := by
    intro effect
    cases effect <;> trivial
  constructor
  case conserves =>
    intro timeline task answer next progress ran
    exact listingWeight_performTask generation ran
  case handle =>
    intro timeline app input answer load awaits _ handled
    have ran : app.onEvent (input.engine.over timeline.present app.principal input.now)
        input.event = .ok answer := onEvent_of_handle handled
    exact ⟨(asks_onEvent ran).keeps awaits, .refl _ _ _, fun effect _ => anything effect⟩
  case receive =>
    intro timeline app message load awaits _
    refine ⟨?_, .refl _ _ _, fun effect _ => anything effect⟩
    cases message with
    | rows rows mode asked => exact awaits_result (.inl ⟨rows, mode, rfl⟩) awaits
    | failed text asked => exact awaits_result (.inr ⟨text, rfl⟩) awaits
    | contextCatalog | contextCatalogFailed | updated | updatedInvisible | updatedUnrefreshed
    | missing | deleted | mutationFailed => exact (asks_onData fun _ => rfl).keeps awaits
  case perform =>
    intro timeline app task answer next progress load awaits _ ran
    refine ⟨⟨awaits.bounded, awaits.later, awaits.current⟩, .refl _ _ _, ?_⟩
    cases progress <;> trivial
  case drift =>
    intro timeline app call next load awaits drifted
    exact ⟨⟨awaits.bounded, awaits.later, awaits.current⟩, .refl _ _ _⟩

omit [AppHost] in
theorem bootstrap_refreshes (principal : Option String) (engine : EngineAnswers) :
    ∃ loaded : App, loaded.generation = 0 ∧
      (App.new principal).bootstrap engine = loaded.refresh := by
  unfold App.bootstrap
  dsimp only
  split
  · exact ⟨_, rfl, rfl⟩
  · split
    · exact ⟨_, rfl, rfl⟩
    · exact ⟨_, rfl, rfl⟩

omit [AppHost] in
theorem awaits_start (principal : Option String) (engine : EngineAnswers) (db : Db)
    (generation : Nat) :
    (UiMoment.start principal engine db).state.Awaits generation
      (UiMoment.start principal engine db).world
      ((UiMoment.start principal engine db).load (listingWeight generation)) := by
  rcases bootstrap_refreshes principal engine with ⟨loaded, first, refreshed⟩
  have nothing : ({ loaded with loading := false } : App).Awaits generation ⟨db, []⟩ 0 := by
    constructor
    · exact Nat.lt_of_le_of_lt (Nat.le_of_eq first) (by decide)
    · exact fun _ => rfl
    · exact fun _ _ => rfl
  have asks : Asks { loaded with loading := false } loaded.refresh := asks_refresh rfl
  have awaits := asks.keeps nothing
  rw [UiMoment.start, Situation.load_respond, refreshed]
  exact awaits

/-- While the interface waits for rows, exactly one listing is under way that
it will show; otherwise none is, and never one of a later generation. -/
theorem listing_awaited {moment : UiMoment} (reached : moment.Reached)
    (room : moment.state.generation < usizeRange - 1) :
    moment.load (listingWeight moment.state.generation) =
        (if moment.state.loading then 1 else 0) ∧
      ∀ generation, moment.state.generation < generation →
        moment.load (listingWeight generation) = 0 := by
  have awaits : ∀ generation, moment.state.Awaits generation moment.world
      (moment.load (listingWeight generation)) := by
    intro generation
    rcases reached with ⟨principal, engine, db, happenings, ran⟩
    refine ((uiLoop_awaits generation).run ⟨awaits_start principal engine db generation, ?_⟩ ran).1
    exact ⟨fun _ _ => trivial, fun _ _ => trivial⟩
  exact ⟨(awaits _).current rfl room, fun generation below => (awaits generation).later below⟩

end Sessions

/-- The owner starts a refresh and opens the memory meanwhile: one listing of
the second generation is under way. -/
theorem listing_awaited_refreshing :
    ∃ moment : UiMoment, moment.state.generation = 2 ∧ moment.state.loading = true ∧
      moment.load (listingWeight moment.state.generation) =
        (if moment.state.loading then 1 else 0) := by
  have refreshes : ∃ moment,
      afterSession [pressed .esc, pressed (.char 'r'), pressed .enter] = some moment ∧
        moment.state.generation = 2 ∧ moment.state.loading = true := ⟨_, rfl, rfl, rfl⟩
  rcases refreshes with ⟨moment, reaches, second, loading⟩
  have room : moment.state.generation < usizeRange - 1 := by
    rw [second]
    decide
  exact ⟨moment, second, loading,
    (@listing_awaited asciiAppHost moment (reached_afterSession reaches) room).1⟩

end LocalHold
