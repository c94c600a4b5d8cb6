import LocalHold.Context.Policy
import LocalHold.Engine.Fusion
import LocalHold.Transition.EventLoop
import LocalHold.Ui.EditDraft

/-!
# The state of the terminal interface

The state of `app.rs`, the messages that its background tasks send, and what
its handlers read from the engine while they wait.  Rendering, the palette and
the clock of relative ages are left out.
-/

namespace LocalHold

open Transition.EventLoop

/-- `Focus`. -/
inductive Focus where
  | contexts
  | memories
deriving DecidableEq, Repr

/-- `Mode`. -/
inductive Mode where
  | browse
  | search
  | detail
  | edit
  | confirmDelete
  | confirmDiscard
  | contextManager
  | contextManagerEdit
  | confirmContextDiscard
deriving DecidableEq, Repr

/-- `ContextManagerPane`. -/
inductive ContextManagerPane where
  | kinds
  | definition
  | identities
  | aliases
  | hierarchy
  | grants
  | lifecycle
  | principalPolicy
  | operatorPolicy
  | anchorOverride
deriving DecidableEq, Repr

namespace ContextManagerPane

/-- `ContextManagerPane::ALL`. -/
def all : List ContextManagerPane :=
  [.kinds, .definition, .identities, .aliases, .hierarchy, .grants, .lifecycle,
    .principalPolicy, .operatorPolicy, .anchorOverride]

/-- `ContextManagerPane::label`. -/
def label : ContextManagerPane → String
  | .kinds => "KINDS"
  | .definition => "DEFINITION"
  | .identities => "IDENTITIES"
  | .aliases => "ALIASES"
  | .hierarchy => "HIERARCHY"
  | .grants => "GRANTS"
  | .lifecycle => "ARCHIVE / REACTIVATE"
  | .principalPolicy => "PRINCIPAL POLICY"
  | .operatorPolicy => "OPERATOR DEFAULTS"
  | .anchorOverride => "ANCHOR OVERRIDE"

/-- `ContextManagerPane::next`. -/
def next (pane : ContextManagerPane) (backwards : Bool) : ContextManagerPane :=
  let index := all.idxOf pane
  let target :=
    if backwards then if index = 0 then all.length - 1 else index - 1
    else if index + 1 = all.length then 0 else index + 1
  all.getD target .kinds

end ContextManagerPane

/-- `ContextManagerEdit`. -/
structure ContextManagerEdit where
  input : TextInput
  original : String
deriving DecidableEq

/-- `ContextManagerEdit::dirty`. -/
def ContextManagerEdit.dirty (edit : ContextManagerEdit) : Bool :=
  edit.input.value.text != edit.original

/-- One grant of a context. -/
structure ContextGrant where
  contextId : ContextId
  granteePrincipal : String
deriving DecidableEq

/-- `ContextManager`, without the audit events, which are only drawn. -/
structure ContextManager where
  record : ContextRecord
  kinds : List ContextKindDefinition
  grants : List ContextGrant
  policies : List ContextKindPolicyRecord
  anchorPolicies : List ContextAnchorPolicyRecord
  pane : ContextManagerPane
  scroll : Nat
  edit : Option ContextManagerEdit

/-- `ContextPolicySnapshot`. -/
structure ContextPolicySnapshot where
  kinds : List ContextKindDefinition
  kindPolicies : List ContextKindPolicyRecord
  anchorPolicies : List ContextAnchorPolicyRecord

/-- `ContextPolicySnapshot::default()`. -/
def ContextPolicySnapshot.default : ContextPolicySnapshot :=
  ⟨[], [], []⟩

/-- `Status`. -/
inductive Status where
  | held (message : String)
  | notHeld (message : String)
  | note (message : String)
deriving DecidableEq, Repr

/-- `Row`: a memory, with its score when it comes from a search. -/
structure Row where
  memory : Memory
  score : Option ℚ
deriving DecidableEq

/-- `AuditEntry`. -/
structure AuditEntry where
  action : AuditAction
  callerAgent : Option String
  timestamp : Instant
  details : Option Json

/-- `Detail`. -/
structure Detail where
  memory : Memory
  metadata : Option MemoryMetadata
  audit : List AuditEntry
  contexts : List ContextDescriptor
  scroll : Nat

/-- `DataMsg`. -/
inductive DataMsg where
  | rows (rows : List Row) (mode : Option SearchMode) (generation : Nat)
  | contextCatalog (records : List ContextRecord) (policy : ContextPolicySnapshot) (total : Nat)
      (warning : Option String) (generation : Nat)
  | contextCatalogFailed (message : String) (generation : Nat)
  | updated (memory : Memory) (metadata : Option MemoryMetadata) (audit : List AuditEntry)
      (contexts : List ContextDescriptor) (refreshWarning : Option String) (generation : Nat)
  | updatedInvisible (id : MemoryId) (generation : Nat)
  | updatedUnrefreshed (id : MemoryId) (message : String) (generation : Nat)
  | missing (id : MemoryId) (generation : Nat)
  | deleted (id : MemoryId) (generation : Nat)
  | mutationFailed (message : String) (generation : Nat)
  | failed (message : String) (generation : Nat)

/-- The tasks that the interface spawns.  A save reads the memory back after its
transaction. -/
inductive DataTask where
  | list (contextIds : List ContextId) (generation : Nat)
  | search (query : String) (contextIds : List ContextId) (mode : Option SearchMode)
      (generation : Nat)
  | catalog (generation : Nat)
  | save (id : MemoryId) (expectedRevision : Int) (edit : ParsedEdit) (principal : String)
      (generation : Nat)
  | refreshDetail (id : MemoryId) (principal : String) (generation : Nat)
  | delete (id : MemoryId) (expectedRevision : Int) (principal : String) (generation : Nat)

/-- What a handler starts or sends. -/
abbrev DataEffects : Type :=
  List (Effect DataTask DataMsg)

/-- `App`. -/
structure App where
  principal : Option String
  generation : Nat
  contextGeneration : Nat
  contexts : List ContextRecord
  contextRecords : List ContextRecord
  contextPolicy : ContextPolicySnapshot
  showArchivedContexts : Bool
  contextTotal : Option Nat
  contextNotice : Option String
  contextCursor : Nat
  selectedContextIds : List ContextId
  includeDescendants : Bool
  rows : List Row
  rowSelected : Nat
  focus : Focus
  mode : Mode
  query : OwnedText
  requestedMode : Option SearchMode
  executedMode : Option SearchMode
  detail : Option Detail
  edit : Option EditDraft
  contextManager : Option ContextManager
  operationGeneration : Nat
  pending : Bool
  status : Status
  loading : Bool
  quit : Bool

/-- The empty string. -/
def OwnedText.empty : OwnedText :=
  ⟨"", Nat.zero_le _⟩

theorem OwnedText.fits_dropLast (value : OwnedText) :
    (String.ofList value.text.toList.dropLast).utf8ByteSize ≤ isizeMax := by
  have parts : value.text.toList =
      value.text.toList.dropLast ++ value.text.toList.drop (value.text.toList.length - 1) ++ [] := by
    rw [List.append_nil, List.dropLast_eq_take, List.take_append_drop]
  have fits := value.fits_without parts
  rw [List.append_nil] at fits
  exact fits

/-- `String::pop`, with the removed character dropped. -/
def OwnedText.pop (value : OwnedText) : OwnedText :=
  ⟨String.ofList value.text.toList.dropLast, value.fits_dropLast⟩

/-- `App::new_with_mutation_factory`. -/
def App.new (principal : Option String) : App where
  principal := principal
  generation := 0
  contextGeneration := 0
  contexts := []
  contextRecords := []
  contextPolicy := .default
  showArchivedContexts := false
  contextTotal := none
  contextNotice := none
  contextCursor := 0
  selectedContextIds := []
  includeDescendants := false
  rows := []
  rowSelected := 0
  focus := .memories
  mode := .browse
  query := .empty
  requestedMode := none
  executedMode := none
  detail := none
  edit := none
  contextManager := none
  operationGeneration := 0
  pending := false
  status := .note "recalling the hold…"
  loading := true
  quit := false

/-- `KeyCode`; the keys that no mode maps are one key. -/
inductive KeyCode where
  | char (letter : Char)
  | enter
  | esc
  | tab
  | backTab
  | backspace
  | delete
  | left
  | right
  | up
  | down
  | home
  | toEnd
  | other
deriving DecidableEq, Repr

/-- `KeyEvent`. -/
structure KeyEvent where
  code : KeyCode
  pressed : Bool
  control : Bool
  alt : Bool
deriving DecidableEq, Repr

/-- `Event`: a key event, or one that the interface ignores. -/
inductive TerminalEvent where
  | key (key : KeyEvent)
  | other
deriving DecidableEq, Repr

/-- What the engine answers while a handler waits for it.  Each handler asks
each question at most once. -/
structure EngineAnswers where
  getMemory : MemoryId → Except String (Option Memory)
  queryAuditLog : MemoryId → Except String (List AuditEntry)
  getMetadata : MemoryId → Except String (Option MemoryMetadata)
  getMemoryContexts : MemoryId → Except String (List ContextDescriptor)
  countMemories : Except String Nat
  listContextRecords : Except String (List ContextRecord)
  listContextKinds : Except String (List ContextKindDefinition)
  listContextGrants : ContextId → Except String (List ContextGrant)
  listContextKindPolicies : Except String (List ContextKindPolicyRecord)
  listContextAnchorPolicies : Except String (List ContextAnchorPolicyRecord)
  queryContextAudit : ContextId → Except String Unit
  expandContextSelection : List ContextId → Bool → Except String (List ContextDefinition)
  mutationEngine : Except String Unit
  applyContextManagerEdit : ContextManager → ContextManagerPane → String → Except String Unit

/-- The editor's parsers with the text that a pane is edited as. -/
class AppHost extends EditorHost where
  /-- `context_manager_edit_value`. -/
  contextManagerEditValue : ContextManager → OwnedText

/-- The text of a null, of a string without escapes and of the empty array. -/
def leafText : Json → String
  | .null => "null"
  | .string text => "\"" ++ text ++ "\""
  | .array [] => "[]"
  | _ => ""

/-- The host of sessions on ASCII text, with one level of JSON and the default
importance. -/
@[reducible]
def asciiAppHost : AppHost where
  toHost := asciiHost
  prettyJson
    | .object entries => "\x7b\n" ++ ",\n".intercalate (entries.map fun entry =>
        "  \"" ++ entry.1 ++ "\": " ++ leafText entry.2) ++ "\n\x7d"
    | value => leafText value
  compactJson := leafText
  readJson _ := .error "expected value"
  readContextIds text := if text = "[]" then some [] else none
  readStrings text := if text = "[]" then some [] else none
  importanceText value := if value = 1 / 2 then "0.50" else "1.00"
  readNumber text := if text = "0.50" then some (some (1 / 2)) else none
  readRfc3339 _ := none
  contextManagerEditValue _ := .empty

end LocalHold
