import LocalHold.Ui.Delivery

/-!
# Drafts and sessions

A draft that was opened stays open, and changes only by the keystrokes of its
owner, until it is left without changes, discarded, found to ask for nothing,
or ended by the outcome of its own save.
-/

namespace LocalHold

open Transition Transition.EventLoop

/-! ## What a key does to a draft -/

/-- The same draft after at most one keystroke. -/
structure EditDraft.Revises (kept draft : EditDraft) : Prop where
  original : kept.original = draft.original
  originalMetadata : kept.originalMetadata = draft.originalMetadata
  values : kept.currentValues = draft.currentValues ∨
    ∃ keystroke pressed, draft.press keystroke = .ok pressed ∧
      kept.currentValues = pressed.currentValues

namespace EditDraft

theorem Revises.refl (draft : EditDraft) : draft.Revises draft :=
  ⟨rfl, rfl, .inl rfl⟩

theorem Revises.withScroll {kept draft : EditDraft} (revises : kept.Revises draft) (scroll : Nat) :
    ({ kept with scroll } : EditDraft).Revises draft :=
  ⟨revises.original, revises.originalMetadata, revises.values⟩

theorem Revises.withField {kept draft : EditDraft} (revises : kept.Revises draft)
    (field : EditField) : ({ kept with field } : EditDraft).Revises draft :=
  ⟨revises.original, revises.originalMetadata, revises.values⟩

theorem original_withInput (draft : EditDraft) (field : EditField) (input : TextInput) :
    (draft.withInput field input).original = draft.original ∧
      (draft.withInput field input).originalMetadata = draft.originalMetadata := by
  cases field <;> exact ⟨rfl, rfl⟩

theorem revises_press {draft pressed : EditDraft} {keystroke : Keystroke}
    (ran : draft.press keystroke = .ok pressed) : pressed.Revises draft := by
  rcases Checked.bind_eq_ok.mp ran with ⟨input, _, done⟩
  cases done
  have kept := draft.original_withInput draft.field input
  exact ⟨kept.1, kept.2, .inr ⟨keystroke, _, ran, rfl⟩⟩

end EditDraft

theorem revises_editDraft {draft edited : EditDraft} {key : KeyEvent}
    (ran : App.editDraft draft key = .ok edited) : edited.Revises draft := by
  unfold App.editDraft at ran
  split at ran
  · exact EditDraft.revises_press ran
  · cases ran
    exact (EditDraft.Revises.refl draft).withField _

/-! ## How a draft ends -/

/-- A key closes a draft: it was clean, it was given up, or it asks for
nothing. -/
inductive App.Leaves [AppHost] (app : App) (draft : EditDraft) (key : KeyEvent) : Prop where
  | clean (mode : app.mode = .edit) (code : key.code = .esc) (untouched : draft.dirty = false)
  | discarded (mode : app.mode = .confirmDiscard) (code : key.code = .char 'y')
  | unchanged (mode : app.mode = .edit) (code : key.code = .char 's')
      (control : key.control = true) (parsed : ParsedEdit) (reads : draft.parse = .ok parsed)
      (empty : parsed.isEmpty = true)

/-- A message ends a draft: its save was applied, or its memory is gone. -/
inductive App.Ends (app : App) : DataMsg → Prop where
  | updated (memory : Memory) (metadata : Option MemoryMetadata) (audit : List AuditEntry)
      (contexts : List ContextDescriptor) (refreshWarning : Option String) :
      app.Ends (.updated memory metadata audit contexts refreshWarning app.operationGeneration)
  | updatedInvisible (id : MemoryId) : app.Ends (.updatedInvisible id app.operationGeneration)
  | updatedUnrefreshed (id : MemoryId) (message : String) :
      app.Ends (.updatedUnrefreshed id message app.operationGeneration)
  | missing (id : MemoryId) : app.Ends (.missing id app.operationGeneration)

/-- What happens closes the open draft of a moment. -/
inductive UiMoment.Closes [AppHost] (moment : UiMoment) (draft : EditDraft) :
    UiHappening → Prop where
  | key (key : KeyEvent) (engine : EngineAnswers) (now : Instant)
      (leaves : moment.state.Leaves draft key) :
      moment.Closes draft (.input ⟨.key key, engine, now⟩)
  | outcome (message : DataMsg) (later : List DataMsg)
      (waiting : moment.mailbox = message :: later) (pending : moment.state.pending = true)
      (ends : moment.state.Ends message) : moment.Closes draft .deliver

/-- The draft is still open, after at most one keystroke. -/
def DraftKept (draft : EditDraft) (next : App) : Prop :=
  ∃ kept, next.edit = some kept ∧ kept.Revises draft

section Steps

variable [AppHost] {app : App} {engine : EngineAnswers} {draft : EditDraft}

omit [AppHost] in
/-- An open draft is on the screen. -/
theorem mode_of_draft {read : Memory → Prop} (front : app.front.Shows read)
    (drafted : app.edit = some draft) :
    (app.mode = .edit ∨ app.mode = .confirmDiscard) ∧ app.front.Editing read := by
  have opened : app.front.edit = some draft := drafted
  unfold Front.Shows at front
  split at front <;> rename_i mode
  · cases front.edit.symm.trans opened
  · cases front.edit.symm.trans opened
  · cases front.1.edit.symm.trans opened
  · cases front.1.edit.symm.trans opened
  · exact ⟨.inl mode, front⟩
  · exact ⟨.inr mode, front.1⟩
  · cases front.1.edit.symm.trans opened
  · cases front.1.edit.symm.trans opened
  · cases front.1.edit.symm.trans opened

theorem draftKept_spawnSave {key : KeyEvent} (mode : app.mode = .edit) (code : key.code = .char 's')
    (control : key.control = true) (drafted : app.edit = some draft) :
    DraftKept draft app.spawnSave.1 ∨ app.Leaves draft key := by
  have same : DraftKept draft app := ⟨draft, drafted, EditDraft.Revises.refl draft⟩
  unfold App.spawnSave
  split
  · exact .inl same
  · split
    · exact .inl same
    · split
      · exact .inl same
      · exact .inl same
      · rename_i detail edit _ present
        cases present.symm.trans drafted
        split
        · rename_i error _
          exact .inl ⟨_, rfl, (EditDraft.Revises.refl draft).withField error.field⟩
        · rename_i parsed reads
          split
          · rename_i empty
            exact .inr (.unchanged mode code control parsed reads empty)
          · exact .inl same

theorem draftKept_keyEdit {answer : App × DataEffects} {key : KeyEvent} {read : Memory → Prop}
    (editing : app.front.Editing read) (mode : app.mode = .edit) (drafted : app.edit = some draft)
    (handled : app.keyEdit key = .ok answer) :
    DraftKept draft answer.1 ∨ app.Leaves draft key := by
  have shown : draft.Shown := by
    rcases editing.edit with ⟨other, present, shown⟩
    cases drafted.symm.trans present
    exact shown
  have same := EditDraft.Revises.refl draft
  unfold App.keyEdit at handled
  split at handled
  · cases handled
    exact .inl ⟨draft, drafted, same⟩
  · split at handled
    · rename_i saves
      cases handled
      exact draftKept_spawnSave mode saves.2 saves.1 drafted
    · split at handled
      · rename_i absent
        cases absent.symm.trans drafted
      · rename_i other present
        cases present.symm.trans drafted
        split at handled
        · rename_i escaped
          split at handled
          · rcases Checked.bind_eq_ok.mp handled with ⟨scrolled, visible, done⟩
            rcases shown.ensureCursorVisible with ⟨scroll, ensured⟩
            cases ensured.symm.trans visible
            cases done
            exact .inl ⟨_, rfl, same.withScroll scroll⟩
          · rename_i untouched
            cases handled
            exact .inr (.clean mode escaped (Bool.eq_false_iff.mpr untouched))
        · rcases Checked.bind_eq_ok.mp handled with ⟨edited, pressed, handled⟩
          rcases Checked.bind_eq_ok.mp handled with ⟨scrolled, visible, done⟩
          rcases (shown_editDraft shown pressed).ensureCursorVisible with ⟨scroll, ensured⟩
          cases ensured.symm.trans visible
          cases done
          exact .inl ⟨_, rfl, (revises_editDraft pressed).withScroll scroll⟩

theorem draftKept_keyConfirmDiscard (mode : app.mode = .confirmDiscard)
    (drafted : app.edit = some draft) (key : KeyEvent) :
    DraftKept draft (app.keyConfirmDiscard key) ∨ app.Leaves draft key := by
  have same := EditDraft.Revises.refl draft
  unfold App.keyConfirmDiscard
  split
  · rename_i code
    exact .inr (.discarded mode code)
  · exact .inl ⟨draft, drafted, same⟩
  · exact .inl ⟨draft, drafted, same⟩
  · exact .inl ⟨draft, drafted, same⟩

/-- Any event keeps an open draft, or it is a key that closes it. -/
theorem draftKept_onEvent {answer : App × DataEffects} {event : TerminalEvent} {read : Memory → Prop}
    (front : app.front.Shows read) (drafted : app.edit = some draft)
    (handled : app.onEvent engine event = .ok answer) :
    DraftKept draft answer.1 ∨ ∃ key, event = .key key ∧ app.Leaves draft key := by
  have same := EditDraft.Revises.refl draft
  rcases mode_of_draft front drafted with ⟨modes, editing⟩
  unfold App.onEvent at handled
  split at handled
  · cases handled
    exact .inl ⟨draft, drafted, same⟩
  rename_i key
  split at handled
  case isFalse =>
    cases handled
    exact .inl ⟨draft, drafted, same⟩
  split at handled
  · cases handled
    refine .inl ⟨draft, ?_, same⟩
    unfold App.requestQuit
    split <;> exact drafted
  rcases modes with mode | mode
  · simp only [App.onKey, mode] at handled
    rcases draftKept_keyEdit editing mode drafted handled with kept | leaves
    · exact .inl kept
    · exact .inr ⟨key, rfl, leaves⟩
  · simp only [App.onKey, mode] at handled
    cases handled
    rcases draftKept_keyConfirmDiscard mode drafted key with kept | leaves
    · exact .inl kept
    · exact .inr ⟨key, rfl, leaves⟩

omit [AppHost] in
/-- A message that is no outcome of the open draft's save leaves the draft. -/
theorem edit_onData {message : DataMsg} (other : ¬ app.Ends message)
    (alive : ∀ id, message ≠ .deleted id app.operationGeneration) :
    (app.onData message).1.edit = app.edit := by
  cases message with
  | rows | contextCatalogFailed | failed | mutationFailed =>
      simp only [App.onData]
      split <;> rfl
  | contextCatalog =>
      simp only [App.onData]
      split
      · split <;> rfl
      · rfl
  | updated memory metadata audit contexts refreshWarning generation =>
      simp only [App.onData]
      split
      · rename_i current
        exact absurd (current ▸ App.Ends.updated _ _ _ _ _) other
      · rfl
  | updatedInvisible id generation =>
      simp only [App.onData]
      split
      · rename_i current
        exact absurd (current ▸ App.Ends.updatedInvisible _) other
      · rfl
  | updatedUnrefreshed id text generation =>
      simp only [App.onData]
      split
      · rename_i current
        exact absurd (current ▸ App.Ends.updatedUnrefreshed _ _) other
      · rfl
  | missing id generation =>
      simp only [App.onData]
      split
      · rename_i current
        exact absurd (current ▸ App.Ends.missing _) other
      · rfl
  | deleted id generation =>
      simp only [App.onData]
      split
      · rename_i current
        exact absurd (current ▸ rfl) (alive id)
      · rfl

end Steps

/-! ## Runs -/

section Runs

variable [AppHost] {moment next final : UiMoment} {draft : EditDraft}

/-- A step keeps an open draft or closes it. -/
theorem draftKept_step {happening : UiHappening}
    (sound : moment.Sound mutationWeight App.Consistent App.marks)
    (stepEq : uiLoop.step moment happening = some next)
    (drafted : moment.state.edit = some draft) :
    DraftKept draft next.state ∨ moment.Closes draft happening := by
  rcases sound with ⟨consistent, carries⟩
  have same := EditDraft.Revises.refl draft
  cases happening with
  | input input =>
      rcases uiLoop.step_input stepEq with ⟨_, answer, handled, rfl⟩
      rcases input with ⟨event, engine, now⟩
      rcases draftKept_onEvent consistent.front drafted (onEvent_of_handle handled) with
        kept | ⟨key, rfl, leaves⟩
      · exact .inl kept
      · exact .inr (.key key engine now leaves)
  | deliver =>
      rcases uiLoop.step_deliver stepEq with ⟨_, message, later, waiting, rfl⟩
      have marked := carries.head waiting
      by_cases ends : moment.state.Ends message
      · right
        refine .outcome message later waiting ?_ ends
        have heavy : 1 ≤ moment.load mutationWeight := by
          refine Nat.le_trans ?_ (moment.message_le_load (waiting ▸ List.mem_cons_self))
          cases ends <;> exact Nat.le_refl 1
        have balanced := consistent.balanced
        cases pending : moment.state.pending with
        | true => rfl
        | false =>
            rw [pending] at balanced
            simp only [Bool.false_eq_true, if_false] at balanced
            omega
      · left
        refine ⟨draft, ?_, same⟩
        refine Eq.trans (edit_onData ends ?_) drafted
        rintro id rfl
        have operates : moment.state.Operates .confirmDelete _ := marked
        rcases (mode_of_draft consistent.front drafted).1 with mode | mode
        · cases mode.symm.trans operates.mode
        · cases mode.symm.trans operates.mode
  | advance position answer =>
      rcases uiLoop.step_advance stepEq with ⟨job, world, progress, _, _, rfl⟩
      left
      cases progress with
      | report message => exact ⟨draft, drafted, same⟩
      | resume rest => exact ⟨draft, drafted, same⟩
  | drift change =>
      rcases uiLoop.step_drift stepEq with ⟨world, _, rfl⟩
      exact .inl ⟨draft, drafted, same⟩

/-- In any run from a moment with an open draft, the draft is still open, or
the run passed a step that closed it.  Ctrl-C is no such step: it asks the program
to end and leaves the draft in the state, which is lost with the program. -/
theorem draft_survives {happenings : List UiHappening} (reached : moment.Reached)
    (runEq : run uiLoop.step moment happenings = some final)
    (drafted : moment.state.edit = some draft) :
    (∃ kept, final.state.edit = some kept ∧ kept.original = draft.original) ∨
      ∃ early happening late middle last, happenings = early ++ happening :: late ∧
        run uiLoop.step moment early = some middle ∧ middle.state.edit = some last ∧
          last.original = draft.original ∧ UiMoment.Closes middle last happening := by
  have sound := reached.sound
  clear reached
  induction happenings generalizing moment draft with
  | nil =>
      cases runEq
      exact .inl ⟨draft, drafted, rfl⟩
  | cons happening rest inductionHypothesis =>
      rcases run_cons_eq_some_iff.mp runEq with ⟨next, stepEq, restRun⟩
      rcases draftKept_step sound stepEq drafted with ⟨kept, keeps, revises⟩ | closes
      · rcases inductionHypothesis restRun keeps (uiLoop_keeps.step sound stepEq) with
          ⟨last, opened, sameOriginal⟩ |
          ⟨early, closing, late, middle, last, split, earlyRun, opened, sameOriginal, closes⟩
        · exact .inl ⟨last, opened, sameOriginal.trans revises.original⟩
        · right
          refine ⟨happening :: early, closing, late, middle, last, ?_, ?_, opened,
            sameOriginal.trans revises.original, closes⟩
          · rw [split, List.cons_append]
          · exact run_cons_eq_some_iff.mpr ⟨next, stepEq, earlyRun⟩
      · exact .inr ⟨[], happening, rest, moment, draft, rfl, rfl, drafted, rfl, closes⟩

end Runs

/-- The owner types a letter, leaves, and confirms that the change is lost. -/
theorem draft_survives_discarded :
    ∃ (moment final : UiMoment) (draft : EditDraft), moment.state.edit = some draft ∧
      final.state.edit = none ∧ ∃ early happening late middle last,
        [pressed (.char 'x'), pressed .esc, pressed (.char 'y')] = early ++ happening :: late ∧
          run (@uiLoop asciiAppHost).step moment early = some middle ∧
            middle.state.edit = some last ∧ last.original = draft.original ∧
              @UiMoment.Closes asciiAppHost middle last happening := by
  have edits : ((afterSession [pressed (.char 'e')]).any fun moment =>
      moment.state.edit.isSome &&
        (run (@uiLoop asciiAppHost).step moment
          [pressed (.char 'x'), pressed .esc, pressed (.char 'y')]).any
            fun final => final.state.edit.isNone) = true := by
    decide +kernel
  rcases (Option.any_eq_true _ _).mp edits with ⟨moment, reaches, both⟩
  rcases Bool.and_eq_true_iff.mp both with ⟨opened, closes⟩
  rcases Option.isSome_iff_exists.mp opened with ⟨draft, drafted⟩
  rcases (Option.any_eq_true _ _).mp closes with ⟨final, runEq, closed⟩
  have gone : final.state.edit = none := Option.isNone_iff_eq_none.mp closed
  refine ⟨moment, final, draft, drafted, gone, ?_⟩
  rcases @draft_survives asciiAppHost moment final draft _ (reached_afterSession reaches) runEq
    drafted with ⟨kept, stays, _⟩ | ended
  · cases gone.symm.trans stays
  · exact ended

end LocalHold
