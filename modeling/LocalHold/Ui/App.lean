import LocalHold.Context.Legacy
import LocalHold.Ui.State

/-!
# The handlers of the terminal interface

`on_event` routes a key by the mode, `on_data` folds the result of a background
task into the state.  A handler returns the next state and the tasks it spawns;
the only way it stops the program is a text that no longer fits its allocation.
-/

namespace LocalHold

open Transition.EventLoop

/-- What a handler returns. -/
abbrev Handled : Type :=
  Except Panic (App × DataEffects)

/-! ## The effective contexts -/

/-- `effective_context_limit_message`. -/
def effectiveContextLimitMessage : String :=
  "context selection expands beyond the maximum of " ++ toString maxEffectiveContexts ++
    " effective contexts; narrow the selection or disable descendants"

/-- `append_effective_context`; the set of included contexts is the list. -/
def appendEffectiveContext (effective : List ContextId) (contextId : ContextId) :
    Except String (List ContextId) :=
  if maxEffectiveContexts ≤ effective.length then .error effectiveContextLimitMessage
  else .ok (effective ++ [contextId])

namespace App

/-- `context_parent_id`. -/
def contextParentId (app : App) (contextId : ContextId) : Option ContextId :=
  (app.contextRecords.find? fun record => record.context.id = contextId).bind
    (·.context.parentId)

/-- `context_is_active`. -/
def contextIsActive (app : App) (contextId : ContextId) : Bool :=
  (app.contextRecords.find? fun record => record.context.id = contextId).any fun record =>
    record.context.lifecycle == .active

/-- `append_context_ancestors`.  A context with a parent is a record, so a walk
longer than the records has met one twice. -/
def appendContextAncestors (app : App) :
    Nat → List ContextId → Option ContextId → List ContextId → Except String (List ContextId)
  | _, _, none, effective => .ok effective
  | 0, _, some _, effective => .ok effective
  | fuel + 1, visited, some parentId, effective =>
      if parentId ∈ visited then .ok effective
      else do
        let effective ←
          if app.contextIsActive parentId && !effective.contains parentId then
            appendEffectiveContext effective parentId
          else .ok effective
        app.appendContextAncestors fuel (parentId :: visited) (app.contextParentId parentId)
          effective

/-- `has_selected_context_ancestor`. -/
def hasSelectedContextAncestor (app : App) : Nat → List ContextId → Option ContextId → Bool
  | _, _, none => false
  | 0, _, some _ => false
  | fuel + 1, visited, some parentId =>
      if parentId ∈ visited then false
      else if parentId ∈ app.selectedContextIds then true
      else app.hasSelectedContextAncestor fuel (parentId :: visited)
        (app.contextParentId parentId)

/-- The walks end within this many steps. -/
def walkFuel (app : App) : Nat :=
  app.contextRecords.length + 2

/-- `append_context_descendants`. -/
def appendContextDescendants (app : App) (effective : List ContextId) :
    Except String (List ContextId) :=
  app.contextRecords.foldlM (fun effective record =>
    if record.context.lifecycle == .active && !effective.contains record.context.id &&
        app.hasSelectedContextAncestor app.walkFuel [] record.context.parentId then
      appendEffectiveContext effective record.context.id
    else .ok effective) effective

/-- Whether the policy of a selected kind includes descendants. -/
def policyIncludesDescendants (app : App) (effective : List ContextId) : Bool :=
  app.contextPolicy.kinds.any fun definition =>
    let policy := evaluateEffectiveContextPolicy definition.kind app.contextPolicy.kinds
      app.contextPolicy.kindPolicies app.contextPolicy.anchorPolicies app.contextRecords effective
    ((app.selectedContextIds.filterMap fun id =>
        app.contextRecords.find? fun record => record.context.id = id).any fun record =>
      record.context.kind == policy.kind) && policy.includeDescendants

/-- The direct selections with their active ancestors. -/
def selectedWithAncestors (app : App) : Except String (List ContextId) :=
  app.selectedContextIds.foldlM (fun effective selected =>
    app.appendContextAncestors app.walkFuel [] (app.contextParentId selected) effective)
    app.selectedContextIds

/-- `effective_selected_context_ids`. -/
def effectiveSelectedContextIds (app : App) : Except String (List ContextId) := do
  if maxEffectiveContexts < app.selectedContextIds.length then
    .error effectiveContextLimitMessage
  else
    let effective ← app.selectedWithAncestors
    if app.includeDescendants || app.policyIncludesDescendants effective then
      app.appendContextDescendants effective
    else .ok effective

/-! ## Refreshing -/

/-- `spawn_list`; the filter holds the effective contexts and the limit is 200. -/
def spawnList (app : App) : DataEffects :=
  match app.effectiveSelectedContextIds with
  | .error message => [.send (.failed message app.generation)]
  | .ok contextIds => [.spawn (.list contextIds app.generation)]

/-- `spawn_search`; the limit is 50. -/
def spawnSearch (app : App) : DataEffects :=
  match app.effectiveSelectedContextIds with
  | .error message => [.send (.failed message app.generation)]
  | .ok contextIds =>
      [.spawn (.search app.query.text contextIds app.requestedMode app.generation)]

/-- `refresh`. -/
def refresh (app : App) : App × DataEffects :=
  let next := { app with generation := saturatingAdd app.generation 1, loading := true }
  (next, if next.query.text.isEmpty then next.spawnList else next.spawnSearch)

/-- `refresh_context_catalog`. -/
def refreshContextCatalog (app : App) : App × DataEffects :=
  let next := { app with contextGeneration := saturatingAdd app.contextGeneration 1 }
  (next, [.spawn (.catalog next.contextGeneration)])

/-- `refresh_all`. -/
def refreshAll (app : App) : App × DataEffects :=
  let (asked, catalog) := app.refreshContextCatalog
  let (next, listing) := asked.refresh
  (next, catalog ++ listing)

/-- `cursor_context`. -/
def cursorContext (app : App) : Option ContextRecord :=
  if app.contextCursor = 0 then none else app.contexts[app.contextCursor - 1]?

/-- `apply_context_catalog`. -/
def applyContextCatalog (app : App) (records : List ContextRecord)
    (policy : ContextPolicySnapshot) (total : Option Nat) (warning : Option String) : App :=
  let cursorId := app.cursorContext.map (·.context.id)
  let contexts := records.filter fun record =>
    app.showArchivedContexts || record.context.lifecycle == .active
  let available := (contexts.filter fun record => record.context.lifecycle == .active).map
    (·.context.id)
  { app with
    contextRecords := records
    contextPolicy := policy
    contexts
    contextTotal := total
    contextNotice := warning
    selectedContextIds := app.selectedContextIds.filter fun id => available.contains id
    contextCursor := ((cursorId.bind fun id =>
      contexts.findIdx? fun record => record.context.id = id).map (· + 1)).getD 0 }

/-- `load_context_catalog`. -/
def loadContextCatalog (engine : EngineAnswers) :
    Except String (List ContextRecord × ContextPolicySnapshot) := do
  let records ← engine.listContextRecords
  let kinds ← engine.listContextKinds
  let kindPolicies ← engine.listContextKindPolicies
  let anchorPolicies ← engine.listContextAnchorPolicies
  .ok (records, ⟨kinds, kindPolicies, anchorPolicies⟩)

/-- The catalog to show, or none with a warning. -/
def catalogOrWarning (catalog : Except String (List ContextRecord × ContextPolicySnapshot)) :
    List ContextRecord × ContextPolicySnapshot × Option String :=
  match catalog with
  | .ok (records, policy) => (records, policy, none)
  | .error error => ([], .default, some ("context catalog unavailable: " ++ error))

/-- `bootstrap`. -/
def bootstrap (app : App) (engine : EngineAnswers) : App × DataEffects :=
  let catalog := loadContextCatalog engine
  let loaded :=
    match engine.countMemories with
    | .ok total =>
        let (records, policy, warning) := catalogOrWarning catalog
        app.applyContextCatalog records policy (some total) warning
    | .error error =>
        let warning := "governed memory count unavailable: " ++ error
        match catalog with
        | .ok (records, policy) => app.applyContextCatalog records policy none (some warning)
        | .error catalogError =>
            { app with
              contextNotice := some (warning ++ "; context catalog unavailable: " ++ catalogError) }
  loaded.refresh

/-! ## Results of background tasks -/

/-- `browse_results_status`. -/
def browseResultsStatus (count : Nat) (scope : String) : Status :=
  if 0 < count then .held (toString count ++ " memories" ++ scope)
  else if scope.isEmpty then .note "the hold is empty here — remember something"
  else .note ("nothing held" ++ scope)

/-- `SearchMode::fmt`. -/
def searchModeText : SearchMode → String
  | .auto => "auto"
  | .semantic => "semantic"
  | .text => "text"
  | .keyword => "keyword"
  | .hybrid => "hybrid"

/-- `results_status`. -/
def resultsStatus (app : App) : Status :=
  let count := app.rows.length
  let context :=
    if app.selectedContextIds.isEmpty then " · broad authorized search"
    else " · " ++ toString app.selectedContextIds.length ++ " direct contexts"
  if app.query.text.isEmpty then browseResultsStatus count context
  else
    let mode := (app.executedMode.map fun mode => " (" ++ searchModeText mode ++ ")").getD ""
    if count = 0 then .note ("nothing found" ++ mode ++ context)
    else .held (toString count ++ " results" ++ mode ++ context)

/-- `sanitize_row_for_view`. -/
def sanitizeRowForView (row : Row) : Row :=
  let memory := row.memory.sanitizeForWire
  ⟨memory, row.score.filter fun _ => !memory.wasRedacted⟩

/-- `redact_audit`. -/
def redactAudit (audit : List AuditEntry) : List AuditEntry :=
  audit.map fun entry => { entry with callerAgent := none, details := none }

/-- `apply_rows`. -/
def applyRows (app : App) (rows : List Row) (mode : Option SearchMode) : App :=
  let shown := { app with
    rows := rows.map sanitizeRowForView
    executedMode := mode
    loading := false
    rowSelected := min app.rowSelected (rows.length - 1) }
  { shown with status := shown.resultsStatus }

/-- The row of an updated memory: `iter_mut().find(..)`. -/
def replaceRow (memory : Memory) : List Row → List Row
  | [] => []
  | row :: rest =>
      if row.memory.id = memory.id then ⟨memory, none⟩ :: rest
      else row :: replaceRow memory rest

/-- `apply_updated_memory`. -/
def applyUpdatedMemory (app : App) (memory : Memory) (metadata : Option MemoryMetadata)
    (audit : List AuditEntry) (contexts : List ContextDescriptor)
    (refreshWarning : Option String) : App × DataEffects :=
  let memory := memory.sanitizeForWire
  let next := { app with
    pending := false
    rows := replaceRow memory app.rows
    detail := some {
      memory
      metadata := if memory.wasRedacted then none else metadata
      audit := if memory.wasRedacted then redactAudit audit else audit
      contexts
      scroll := 0 }
    edit := none
    mode := .detail
    status := (refreshWarning.map fun warning =>
      Status.notHeld ("memory revised, but " ++ warning)).getD (.held "memory revised") }
  if app.query.text.isEmpty then (next, []) else next.refresh

/-- `remove_memory_from_view`. -/
def removeMemoryFromView (app : App) (id : MemoryId) (status : Status)
    (refreshCatalog : Bool) : App × DataEffects :=
  let rows := app.rows.filter fun row => row.memory.id != id
  let next := { app with
    pending := false
    rows
    rowSelected := min app.rowSelected (rows.length - 1)
    detail := none
    edit := none
    mode := .browse
    status }
  if refreshCatalog then next.refreshContextCatalog else (next, [])

/-- What the comparison of two expansions sees: `ok()`. -/
def effectiveOk (app : App) : Option (List ContextId) :=
  app.effectiveSelectedContextIds.toOption

/-- `on_data`. -/
def onData (app : App) : DataMsg → App × DataEffects
  | .contextCatalog records policy total warning generation =>
      if generation = app.contextGeneration then
        let next := app.applyContextCatalog records policy (some total) warning
        if app.effectiveOk ≠ next.effectiveOk then next.refresh else (next, [])
      else (app, [])
  | .contextCatalogFailed message generation =>
      if generation = app.contextGeneration then
        ({ app with contextNotice := some message }, [])
      else (app, [])
  | .rows rows mode generation =>
      if generation = app.generation then (app.applyRows rows mode, []) else (app, [])
  | .failed message generation =>
      if generation = app.generation then
        ({ app with executedMode := none, loading := false, status := .notHeld message }, [])
      else (app, [])
  | .updated memory metadata audit contexts refreshWarning generation =>
      if generation = app.operationGeneration then
        app.applyUpdatedMemory memory metadata audit contexts refreshWarning
      else (app, [])
  | .updatedInvisible id generation =>
      if generation = app.operationGeneration then
        app.removeMemoryFromView id (.held "memory revised and is no longer visible") true
      else (app, [])
  | .updatedUnrefreshed id message generation =>
      if generation = app.operationGeneration then
        app.removeMemoryFromView id
          (.notHeld ("memory revised, but refresh failed: " ++ message)) false
      else (app, [])
  | .missing id generation =>
      if generation = app.operationGeneration then
        app.removeMemoryFromView id (.notHeld "memory no longer exists") true
      else (app, [])
  | .deleted id generation =>
      if generation = app.operationGeneration then
        app.removeMemoryFromView id (.held "memory forgotten") true
      else (app, [])
  | .mutationFailed message generation =>
      if generation = app.operationGeneration then
        ({ app with
          pending := false
          status := .notHeld message
          mode := if app.mode = .confirmDelete then .detail else app.mode }, [])
      else (app, [])

/-! ## Browsing -/

/-- `request_quit`. -/
def requestQuit (app : App) : App :=
  if app.pending then
    { app with status := .note "waiting for the pending memory change to finish" }
  else { app with quit := true }

/-- `move_selection`. -/
def moveSelection (app : App) (down : Bool) : App :=
  match app.focus with
  | .memories =>
      { app with
        rowSelected :=
          if down then min (app.rowSelected + 1) (app.rows.length - 1) else app.rowSelected - 1 }
  | .contexts =>
      { app with
        contextCursor :=
          if down then min (app.contextCursor + 1) app.contexts.length
          else app.contextCursor - 1 }

/-- `jump_selection`. -/
def jumpSelection (app : App) (top : Bool) : App :=
  match app.focus with
  | .memories => { app with rowSelected := if top then 0 else app.rows.length - 1 }
  | .contexts => { app with contextCursor := if top then 0 else app.contexts.length }

/-- The order of `cycle_mode`. -/
def nextSearchMode : Option SearchMode → Option SearchMode
  | none => some .keyword
  | some .keyword => some .text
  | some .text => some .semantic
  | some .semantic => some .hybrid
  | some .hybrid => some .auto
  | some .auto => none

/-- `cycle_mode`. -/
def cycleMode (app : App) : App × DataEffects :=
  let next := { app with requestedMode := nextSearchMode app.requestedMode }
  if app.query.text.isEmpty then (next, []) else next.refresh

/-- The kinds of a list of definitions, as a set. -/
def kindsOf (definitions : List ContextDefinition) : List ContextKind :=
  (definitions.map (·.kind)).dedup

/-- The first kind that a policy does not allow beside its own. -/
def disallowedCompanionOf (policy : EffectiveContextPolicy) (kinds : List ContextKind) :
    Option ContextKind :=
  policy.allowedCompanionKinds.bind fun companions =>
    kinds.find? fun kind => kind ≠ policy.kind ∧ kind ∉ companions

/-- `context_selection_denial`. -/
def contextSelectionDenial (app : App) (engine : EngineAnswers) (directIds : List ContextId)
    (requestedDescendants : Bool) : Except String (Option String) := do
  let initialEffective ← engine.expandContextSelection directIds false
  let kinds ← engine.listContextKinds
  let kindPolicies ← engine.listContextKindPolicies
  let anchorPolicies ← engine.listContextAnchorPolicies
  let policiesOf := fun effectiveIds : List ContextId => kinds.map fun definition =>
    evaluateEffectiveContextPolicy definition.kind kinds kindPolicies anchorPolicies
      app.contextRecords effectiveIds
  let directKinds := (directIds.filterMap fun id =>
    app.contextRecords.find? fun record => record.context.id = id).map (·.context.kind)
  let includeDescendants := requestedDescendants ||
    (policiesOf (initialEffective.map (·.id))).any fun policy =>
      directKinds.contains policy.kind && policy.includeDescendants
  let effective ←
    if includeDescendants then engine.expandContextSelection directIds true
    else .ok initialEffective
  let effectiveKinds := kindsOf effective
  let policies := policiesOf (effective.map (·.id))
  match policies.find? fun policy => !policy.ambiguities.isEmpty with
  | some policy => .ok (some ("effective policy for " ++ policy.kind.name ++ " is ambiguous"))
  | none =>
      match policies.find? fun policy =>
          effectiveKinds.contains policy.kind && !policy.allowed with
      | some policy =>
          .ok (some ("effective policy denies context kind " ++ policy.kind.name))
      | none =>
          .ok (((policies.filter fun policy => effectiveKinds.contains policy.kind).findSome?
            fun policy => (disallowedCompanionOf policy effectiveKinds).map fun disallowed =>
              "effective " ++ policy.kind.name ++ " policy does not allow companion kind " ++
                disallowed.name))

/-- Whether a selection may be made; otherwise the status that says why not. -/
def selectionAllowed (app : App) (engine : EngineAnswers) (proposed : List ContextId)
    (descendants : Bool) : Except Status Unit :=
  match app.contextSelectionDenial engine proposed descendants with
  | .ok (some message) => .error (.notHeld message)
  | .ok none => .ok ()
  | .error error => .error (.notHeld ("context policy evaluation failed: " ++ error))

/-- `toggle_cursor_context`. -/
def toggleCursorContext (app : App) (engine : EngineAnswers) : App × DataEffects :=
  match app.cursorContext with
  | none => ({ app with selectedContextIds := [], rowSelected := 0 } : App).refresh
  | some item =>
      let contextId := item.context.id
      if item.context.lifecycle = .archived then
        ({ app with
          status := .note "archived contexts can be managed or reactivated, but not selected" }, [])
      else if contextId ∈ app.selectedContextIds then
        ({ app with
          selectedContextIds := app.selectedContextIds.erase contextId
          rowSelected := 0 } : App).refresh
      else
        match app.selectionAllowed engine (app.selectedContextIds ++ [contextId])
            app.includeDescendants with
        | .error status => ({ app with status }, [])
        | .ok () =>
            ({ app with
              selectedContextIds := app.selectedContextIds ++ [contextId]
              rowSelected := 0 } : App).refresh

/-- `toggle_context_descendants`. -/
def toggleContextDescendants (app : App) (engine : EngineAnswers) : App × DataEffects :=
  let proposed := !app.includeDescendants
  let toggled := ({ app with includeDescendants := proposed, rowSelected := 0 } : App).refresh
  if app.selectedContextIds.isEmpty then toggled
  else
    match app.selectionAllowed engine app.selectedContextIds proposed with
    | .error status => ({ app with status }, [])
    | .ok () => toggled

/-- `load_detail_metadata`. -/
def loadDetailMetadata (app : App) (engine : EngineAnswers) (id : MemoryId) :
    App × Option MemoryMetadata :=
  match engine.getMetadata id with
  | .ok metadata => (app, metadata)
  | .error error => ({ app with status := .notHeld ("metadata unavailable: " ++ error) }, none)

/-- `load_detail_contexts`. -/
def loadDetailContexts (app : App) (engine : EngineAnswers) (id : MemoryId) :
    App × List ContextDescriptor :=
  match engine.getMemoryContexts id with
  | .ok contexts => (app, contexts)
  | .error error => ({ app with status := .notHeld ("contexts unavailable: " ++ error) }, [])

/-- The history of a memory that is opened. -/
def loadDetailAudit (app : App) (engine : EngineAnswers) (id : MemoryId) :
    App × List AuditEntry :=
  match engine.queryAuditLog id with
  | .ok entries => (app, entries)
  | .error error => ({ app with status := .notHeld ("history unavailable: " ++ error) }, [])

/-- `open_detail`. -/
def openDetail (app : App) (engine : EngineAnswers) : App :=
  match app.rows[app.rowSelected]? with
  | none => app
  | some row =>
      let id := row.memory.id
      match engine.getMemory id with
      | .ok (some found) =>
          let memory := found.sanitizeForWire
          let (app, audit) := app.loadDetailAudit engine id
          let audit := if memory.wasRedacted then redactAudit audit else audit
          let (app, metadata) :=
            if memory.wasRedacted then (app, none) else app.loadDetailMetadata engine id
          let (app, contexts) :=
            if memory.wasRedacted then (app, []) else app.loadDetailContexts engine id
          { app with detail := some ⟨memory, metadata, audit, contexts, 0⟩, mode := .detail }
      | .ok none =>
          { app with status := .notHeld "memory is no longer visible to this principal" }
      | .error error => { app with status := .notHeld ("read failed: " ++ error) }

/-- `open_or_focus`. -/
def openOrFocus (app : App) (engine : EngineAnswers) : App :=
  match app.focus with
  | .contexts => { app with focus := .memories }
  | .memories => app.openDetail engine

/-- `load_context_manager`. -/
def loadContextManager (engine : EngineAnswers) (contextId : ContextId)
    (pane : ContextManagerPane) : Except String ContextManager := do
  let records ← engine.listContextRecords
  match records.find? fun record => record.context.id = contextId with
  | none => .error ("context " ++ contextId.display ++ " is no longer visible")
  | some record =>
      let kinds ← engine.listContextKinds
      let grants ← engine.listContextGrants contextId
      let policies ← engine.listContextKindPolicies
      let anchorPolicies ← engine.listContextAnchorPolicies
      let _ ← engine.queryContextAudit contextId
      .ok ⟨record, kinds, grants, policies, anchorPolicies, pane, 0, none⟩

/-- `open_context_manager`. -/
def openContextManager (app : App) (engine : EngineAnswers) : App :=
  match app.cursorContext with
  | none => { app with status := .note "choose a context before opening its manager" }
  | some item =>
      match loadContextManager engine item.context.id .definition with
      | .ok manager => { app with contextManager := some manager, mode := .contextManager }
      | .error error =>
          { app with status := .notHeld ("context manager unavailable: " ++ error) }

/-- `key_browse`. -/
def keyBrowse (app : App) (engine : EngineAnswers) (key : KeyEvent) : App × DataEffects :=
  let inContexts := app.focus == .contexts
  match key.code with
  | .char 'q' => (app.requestQuit, [])
  | .tab | .backTab =>
      ({ app with focus := if app.focus = .contexts then .memories else .contexts }, [])
  | .char 'h' | .left => ({ app with focus := .contexts }, [])
  | .char 'l' | .right => ({ app with focus := .memories }, [])
  | .char 'j' | .down => (app.moveSelection true, [])
  | .char 'k' | .up => (app.moveSelection false, [])
  | .char 'g' | .home => (app.jumpSelection true, [])
  | .char 'G' | .toEnd => (app.jumpSelection false, [])
  | .char '/' => ({ app with mode := .search }, [])
  | .char 'm' => app.cycleMode
  | .char 'r' => app.refreshAll
  | .char ' ' => if inContexts then app.toggleCursorContext engine else (app, [])
  | .char 'x' =>
      if inContexts then
        ({ app with selectedContextIds := [], rowSelected := 0 } : App).refresh
      else (app, [])
  | .char 'D' => if inContexts then app.toggleContextDescendants engine else (app, [])
  | .char 'a' =>
      if inContexts then
        ({ app with showArchivedContexts := !app.showArchivedContexts } : App).refreshContextCatalog
      else (app, [])
  | .char 'c' => if inContexts then (app.openContextManager engine, []) else (app, [])
  | .esc =>
      if app.query.text.isEmpty then (app, [])
      else ({ app with query := .empty } : App).refresh
  | .enter => (app.openOrFocus engine, [])
  | _ => (app, [])

/-- `key_search`. -/
def keySearch (app : App) (key : KeyEvent) : Handled :=
  match key.code with
  | .esc => .ok ({ app with mode := .browse }, [])
  | .enter => .ok ({ app with mode := .browse, focus := .memories } : App).refresh
  | .backspace => .ok ({ app with query := app.query.pop }, [])
  | .char letter =>
      if letter = 'u' ∧ key.control = true then .ok ({ app with query := .empty }, [])
      else if key.control then .ok (app, [])
      else do
        let query ← app.query.insert app.query.text.utf8ByteSize letter
        .ok ({ app with query }, [])
  | _ => .ok (app, [])

/-! ## One memory -/

section Editing

variable [AppHost]

/-- `begin_edit`. -/
def beginEdit (app : App) : Except Panic App :=
  if app.pending then .ok app
  else
    match app.principal with
    | none =>
        .ok { app with status := .notHeld "editing requires --principal or server.principal" }
    | some principal =>
        match app.detail with
        | none => .ok app
        | some detail =>
            if detail.memory.wasRedacted || !detail.memory.hasWriteAccess principal then
              .ok { app with
                status := .notHeld "this principal cannot modify the selected memory" }
            else do
              let draft ← EditDraft.new detail.memory detail.metadata detail.contexts
              .ok { app with
                edit := some draft, mode := .edit, status := .note "editing memory" }

omit [AppHost] in
/-- `begin_delete`. -/
def beginDelete (app : App) : App :=
  if app.pending then app
  else
    match app.principal with
    | none => { app with status := .notHeld "deletion requires --principal or server.principal" }
    | some principal =>
        match app.detail with
        | none => app
        | some detail =>
            if detail.memory.wasRedacted || !detail.memory.hasWriteAccess principal then
              { app with status := .notHeld "this principal cannot delete the selected memory" }
            else { app with mode := .confirmDelete }

/-- `key_detail`. -/
def keyDetail (app : App) (key : KeyEvent) : Handled :=
  match key.code with
  | .esc | .char 'q' | .enter => .ok ({ app with detail := none, mode := .browse }, [])
  | .char 'e' => do
      let next ← app.beginEdit
      .ok (next, [])
  | .char 'd' => .ok (app.beginDelete, [])
  | .char 'j' | .down =>
      .ok ({ app with detail := app.detail.map fun detail =>
        { detail with scroll := min (detail.scroll + 1) u16Max } }, [])
  | .char 'k' | .up =>
      .ok ({ app with detail := app.detail.map fun detail =>
        { detail with scroll := detail.scroll - 1 } }, [])
  | _ => .ok (app, [])

omit [AppHost] in
/-- A mutation task has been spawned: listings under way become stale. -/
def beginMutation (app : App) (status : Status) : App :=
  { app with
    operationGeneration := saturatingAdd app.operationGeneration 1
    generation := saturatingAdd app.generation 1
    loading := false
    pending := true
    status }

/-- `spawn_save`. -/
def spawnSave (app : App) : App × DataEffects :=
  if app.pending then (app, [])
  else
    match app.principal with
    | none =>
        ({ app with status := .notHeld "editing requires --principal or server.principal" }, [])
    | some principal =>
        match app.detail, app.edit with
        | none, _ | _, none => (app, [])
        | some detail, some edit =>
            match edit.parse with
            | .error error =>
                ({ app with
                  edit := some { edit with field := error.field }
                  status := .notHeld error.message }, [])
            | .ok parsed =>
                if parsed.isEmpty then
                  ({ app with
                    edit := none, mode := .detail, status := .note "no changes to hold" }, [])
                else
                  let next := app.beginMutation (.note "holding revision…")
                  (next, [.spawn (.save detail.memory.id detail.memory.recordRevision parsed
                    principal next.operationGeneration)])

omit [AppHost] in
/-- `spawn_delete`. -/
def spawnDelete (app : App) : App × DataEffects :=
  if app.pending then (app, [])
  else
    match app.principal with
    | none =>
        ({ app with status := .notHeld "deletion requires --principal or server.principal" }, [])
    | some principal =>
        match app.detail with
        | none => (app, [])
        | some detail =>
            let next := app.beginMutation (.note "forgetting memory…")
            (next, [.spawn (.delete detail.memory.id detail.memory.recordRevision principal
              next.operationGeneration)])

omit [AppHost] in
/-- The keystroke that a key stands for in a draft, if it stands for one. -/
def editKeystroke (field : EditField) (key : KeyEvent) : Option Keystroke :=
  match key.code with
  | .enter => if field.multiline then some (.insert '\n') else none
  | .backspace => some .backspace
  | .delete => some .delete
  | .left => some .left
  | .right => some .right
  | .home => some .home
  | .toEnd => some .toEnd
  | .up => if field.multiline then some .up else none
  | .down => if field.multiline then some .down else none
  | .char letter => if key.control || key.alt then none else some (.insert letter)
  | _ => none

omit [AppHost] in
/-- The field that a key moves to, where it is no keystroke. -/
def editFocus (field : EditField) (key : KeyEvent) : EditField :=
  match key.code with
  | .backTab | .up => field.next true
  | .tab | .enter | .down => field.next false
  | _ => field

omit [AppHost] in
/-- One key of an open draft. -/
def editDraft (edit : EditDraft) (key : KeyEvent) : Except Panic EditDraft :=
  match editKeystroke edit.field key with
  | some keystroke => edit.press keystroke
  | none => .ok { edit with field := editFocus edit.field key }

/-- `key_edit`. -/
def keyEdit (app : App) (key : KeyEvent) : Handled :=
  if app.pending then .ok (app, [])
  else if key.control = true ∧ key.code = .char 's' then .ok app.spawnSave
  else
    match app.edit with
    | none => .ok ({ app with mode := .detail }, [])
    | some edit =>
        if key.code = .esc then
          if edit.dirty then do
            let edit ← edit.ensureCursorVisible
            .ok ({ app with mode := .confirmDiscard, edit := some edit }, [])
          else .ok ({ app with mode := .detail, edit := none }, [])
        else do
          let edited ← editDraft edit key
          let edited ← edited.ensureCursorVisible
          .ok ({ app with edit := some edited }, [])

omit [AppHost] in
/-- `key_confirm_delete`. -/
def keyConfirmDelete (app : App) (key : KeyEvent) : App × DataEffects :=
  if app.pending then (app, [])
  else
    match key.code with
    | .char 'y' => app.spawnDelete
    | .char 'n' | .esc => ({ app with mode := .detail }, [])
    | _ => (app, [])

omit [AppHost] in
/-- `key_confirm_discard`. -/
def keyConfirmDiscard (app : App) (key : KeyEvent) : App :=
  match key.code with
  | .char 'y' => { app with edit := none, mode := .detail }
  | .char 'n' | .esc => { app with mode := .edit }
  | _ => app

/-! ## The context manager -/

/-- `begin_context_manager_edit`. -/
def beginContextManagerEdit (app : App) : App :=
  match app.principal with
  | none => { app with status := .notHeld "context editing requires a configured principal" }
  | some principal =>
      let operatorPane := app.contextManager.any fun manager =>
        manager.pane == .kinds || manager.pane == .operatorPolicy
      if operatorPane && principal != operatorPrincipal then
        let message := "operator context controls require --principal " ++ operatorPrincipal
        { app with status := .notHeld message }
      else
        match app.contextManager with
        | none => app
        | some manager =>
            let value := AppHost.contextManagerEditValue manager
            let edit : ContextManagerEdit := ⟨TextInput.new value, value.text⟩
            { app with
              contextManager := some { manager with edit := some edit }
              mode := .contextManagerEdit }

omit [AppHost] in
/-- `reload_context_manager`. -/
def reloadContextManager (app : App) (engine : EngineAnswers) : App :=
  match app.contextManager with
  | none => app
  | some manager =>
      match loadContextManager engine manager.record.context.id manager.pane with
      | .ok manager =>
          { app with contextManager := some manager, status := .held "context manager refreshed" }
      | .error error =>
          { app with status := .notHeld ("context manager refresh failed: " ++ error) }

omit [AppHost] in
/-- The state with another manager. -/
def withManager (app : App) (manager : ContextManager) : App :=
  { app with contextManager := some manager }

/-- `key_context_manager`. -/
def keyContextManager (app : App) (engine : EngineAnswers) (key : KeyEvent) : App :=
  match app.contextManager with
  | none => { app with mode := .browse }
  | some manager =>
      match key.code with
      | .esc | .char 'q' => { app with contextManager := none, mode := .browse }
      | .tab | .right | .char 'l' =>
          app.withManager { manager with pane := manager.pane.next false, scroll := 0 }
      | .backTab | .left | .char 'h' =>
          app.withManager { manager with pane := manager.pane.next true, scroll := 0 }
      | .char 'j' | .down =>
          app.withManager { manager with scroll := min (manager.scroll + 1) u16Max }
      | .char 'k' | .up =>
          app.withManager { manager with scroll := manager.scroll - 1 }
      | .char 'e' => app.beginContextManagerEdit
      | .char 'r' => app.reloadContextManager engine
      | _ => app

omit [AppHost] in
/-- `save_context_manager_edit`.  The handler waits for the whole save, so no
other event sees its `pending`. -/
def saveContextManagerEdit (app : App) (engine : EngineAnswers) : App × DataEffects :=
  match app.principal with
  | none =>
      ({ app with
        status := .notHeld "context editing requires a configured principal"
        mode := .contextManager }, [])
  | some _ =>
      match app.contextManager with
      | none => (app, [])
      | some manager =>
          match manager.edit with
          | none => (app, [])
          | some edit =>
              let contextId := manager.record.context.id
              let saved := do
                let _ ← engine.mutationEngine
                engine.applyContextManagerEdit manager manager.pane edit.input.value.text
              match saved with
              | .error error => ({ app with pending := false, status := .notHeld error }, [])
              | .ok () =>
                  match loadContextManager engine contextId manager.pane with
                  | .ok loaded =>
                      let selectable := loaded.record.context.lifecycle == .active
                      ({ app with
                        pending := false
                        selectedContextIds := app.selectedContextIds.filter fun selected =>
                          selectable || selected != contextId
                        contextManager := some loaded
                        mode := .contextManager
                        status := .held (asciiLowercase manager.pane.label ++ " updated") } :
                          App).refreshAll
                  | .error error =>
                      ({ app with
                        pending := false
                        contextManager := none
                        mode := .browse
                        status := .notHeld ("context updated, but refresh failed: " ++ error) } :
                          App).refreshAll

omit [AppHost] in
/-- The keystroke that a key stands for in a pane. -/
def paneKeystroke (key : KeyEvent) : Option Keystroke :=
  match key.code with
  | .enter => some (.insert '\n')
  | .backspace => some .backspace
  | .delete => some .delete
  | .left => some .left
  | .right => some .right
  | .home => some .home
  | .toEnd => some .toEnd
  | .up => some .up
  | .down => some .down
  | .char letter => if key.control || key.alt then none else some (.insert letter)
  | _ => none

omit [AppHost] in
/-- One key of a pane under edit. -/
def editPane (edit : ContextManagerEdit) (key : KeyEvent) : Except Panic ContextManagerEdit :=
  match paneKeystroke key with
  | none => .ok edit
  | some keystroke => do
      let input ← edit.input.press keystroke
      .ok { edit with input }

omit [AppHost] in
/-- `key_context_manager_edit`. -/
def keyContextManagerEdit (app : App) (engine : EngineAnswers) (key : KeyEvent) : Handled :=
  if app.pending then .ok (app, [])
  else if key.control = true ∧ key.code = .char 's' then .ok (app.saveContextManagerEdit engine)
  else if key.code = .esc then
    if (app.contextManager.bind (·.edit)).any ContextManagerEdit.dirty then
      .ok ({ app with mode := .confirmContextDiscard }, [])
    else
      .ok ({ app with
        contextManager := app.contextManager.map fun manager => { manager with edit := none }
        mode := .contextManager }, [])
  else
    match app.contextManager with
    | none => .ok ({ app with mode := .contextManager }, [])
    | some manager =>
        match manager.edit with
        | none => .ok ({ app with mode := .contextManager }, [])
        | some edit => do
            let edited ← editPane edit key
            .ok ({ app with contextManager := some { manager with edit := some edited } }, [])

omit [AppHost] in
/-- `key_confirm_context_discard`. -/
def keyConfirmContextDiscard (app : App) (key : KeyEvent) : App :=
  match key.code with
  | .char 'y' =>
      { app with
        contextManager := app.contextManager.map fun manager => { manager with edit := none }
        mode := .contextManager }
  | .char 'n' | .esc => { app with mode := .contextManagerEdit }
  | _ => app

/-- The handler of the current mode. -/
def onKey (app : App) (engine : EngineAnswers) (key : KeyEvent) : Handled :=
  match app.mode with
  | .browse => .ok (app.keyBrowse engine key)
  | .search => app.keySearch key
  | .detail => app.keyDetail key
  | .edit => app.keyEdit key
  | .confirmDelete => .ok (app.keyConfirmDelete key)
  | .confirmDiscard => .ok (app.keyConfirmDiscard key, [])
  | .contextManager => .ok (app.keyContextManager engine key, [])
  | .contextManagerEdit => app.keyContextManagerEdit engine key
  | .confirmContextDiscard => .ok (app.keyConfirmContextDiscard key, [])

/-- `on_event`. -/
def onEvent (app : App) (engine : EngineAnswers) : TerminalEvent → Handled
  | .other => .ok (app, [])
  | .key key =>
      if key.pressed then
        if key.control = true ∧ key.code = .char 'c' then .ok (app.requestQuit, [])
        else app.onKey engine key
      else .ok (app, [])

end Editing

end App

end LocalHold
