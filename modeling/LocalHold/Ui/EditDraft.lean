import LocalHold.Ui.TextInput
import LocalHold.Server.Protocol
import LocalHold.Types.Access
import LocalHold.Store.Database

/-!
# The edit draft

The draft of `editor.rs` holds six text inputs and the texts they started from.
Keystrokes go to the input of the focused field.  Saving reads every changed
field back; the first field that cannot be read stops the save.
-/

namespace LocalHold

open Transition.Checked (bind_eq_ok)

/-- The parsers and printers that the editor calls. -/
class EditorHost extends Host where
  /-- `serde_json::to_string_pretty`. -/
  prettyJson : Json → String
  /-- `serde_json::to_string`. -/
  compactJson : Json → String
  /-- `serde_json::from_str` into a value. -/
  readJson : String → Except String Json
  /-- `serde_json::from_str` into context identifiers. -/
  readContextIds : String → Option (List ContextId)
  /-- `serde_json::from_str` into strings. -/
  readStrings : String → Option (List String)
  /-- `format!("{:.2}")` of a score. -/
  importanceText : ℚ → String
  /-- `str::parse::<f64>`; a number that is not finite has no value. -/
  readNumber : String → Option (Option ℚ)
  /-- `DateTime::parse_from_rfc3339`. -/
  readRfc3339 : String → Option Instant

/-- `EditField`. -/
inductive EditField where
  | content
  | contexts
  | tags
  | importance
  | expiry
  | metadata
deriving DecidableEq, Repr

/-- `EditField::ALL`. -/
def EditField.all : List EditField :=
  [.content, .contexts, .tags, .importance, .expiry, .metadata]

/-- `EditField::next`. -/
def EditField.next (field : EditField) (backwards : Bool) : EditField :=
  let index := all.idxOf field
  let target :=
    if backwards then if index = 0 then all.length - 1 else index - 1
    else if index + 1 = all.length then 0 else index + 1
  all.getD target .content

/-- `EditField::multiline`. -/
def EditField.multiline : EditField → Bool
  | .content | .contexts | .metadata => true
  | .tags | .importance | .expiry => false

/-- `DraftValues`. -/
structure DraftValues where
  content : String
  contexts : String
  tags : String
  importance : String
  expiry : String
  metadata : String
deriving DecidableEq

/-- `EditDraft`. -/
structure EditDraft where
  field : EditField
  scroll : Nat
  content : TextInput
  contexts : TextInput
  tags : TextInput
  importance : TextInput
  expiry : TextInput
  metadata : TextInput
  original : DraftValues
  originalMetadata : Option MemoryMetadata
deriving DecidableEq

/-- `ParsedEdit`. -/
structure ParsedEdit where
  update : MemoryUpdate
  metadataPatch : Option MetadataPatch
  contextIds : Option (List ContextId)
deriving DecidableEq

/-- `DraftError`. -/
structure DraftError where
  field : EditField
  message : String
deriving DecidableEq

/-- `ParsedEdit::is_empty`. -/
def ParsedEdit.isEmpty (parsed : ParsedEdit) : Bool :=
  parsed.update.content.isNone && parsed.update.tags.isNone &&
    parsed.update.importance.isNone && parsed.update.expiresAt.isNone &&
    parsed.metadataPatch.isNone && parsed.contextIds.isNone

/-- A text as an allocated string. -/
def OwnedText.clone (text : String) : Except Panic OwnedText :=
  if fits : text.utf8ByteSize ≤ isizeMax then .ok ⟨text, fits⟩ else .error .capacityOverflow

/-- `str::lines().count()`. -/
def lineCount (text : String) : Nat :=
  let letters := text.toList
  letters.count '\n' + if letters.getLast?.all fun letter => letter == '\n' then 0 else 1

/-- `u16::MAX`. -/
def u16Max : Nat :=
  2 ^ 16 - 1

namespace EditDraft

/-! ## Fields and keystrokes -/

/-- The input of a field. -/
def input (draft : EditDraft) : EditField → TextInput
  | .content => draft.content
  | .contexts => draft.contexts
  | .tags => draft.tags
  | .importance => draft.importance
  | .expiry => draft.expiry
  | .metadata => draft.metadata

/-- The draft with another input of a field. -/
def withInput (draft : EditDraft) (field : EditField) (input : TextInput) : EditDraft :=
  match field with
  | .content => { draft with content := input }
  | .contexts => { draft with contexts := input }
  | .tags => { draft with tags := input }
  | .importance => { draft with importance := input }
  | .expiry => { draft with expiry := input }
  | .metadata => { draft with metadata := input }

/-- `EditDraft::active`. -/
def active (draft : EditDraft) : TextInput :=
  draft.input draft.field

/-- A keystroke of the focused field: `active_mut()` and an operation on it. -/
def press (draft : EditDraft) (keystroke : Keystroke) : Except Panic EditDraft := do
  let input ← draft.active.press keystroke
  .ok (draft.withInput draft.field input)

/-- The loop of `cursor_document_line`. -/
def cursorLineFrom (draft : EditDraft) : List EditField → Nat → Except Panic Nat
  | [], line => .ok line
  | field :: rest, line => do
      let heading := line + 1
      if field = draft.field then
        let before ← sliceTo (draft.input field).value.text (draft.input field).cursor
        .ok (heading + before.toList.count '\n')
      else
        draft.cursorLineFrom rest
          (heading + max (lineCount (draft.input field).value.text) 1 + 1)

/-- `EditDraft::cursor_document_line`. -/
def cursorDocumentLine (draft : EditDraft) : Except Panic Nat :=
  draft.cursorLineFrom EditField.all 3

/-- `EditDraft::ensure_cursor_visible`. -/
def ensureCursorVisible (draft : EditDraft) : Except Panic EditDraft := do
  let cursorLine ← draft.cursorDocumentLine
  if cursorLine < draft.scroll then
    .ok { draft with scroll := min cursorLine u16Max }
  else if draft.scroll + 12 ≤ cursorLine then
    .ok { draft with scroll := min (cursorLine - 11) u16Max }
  else .ok draft

/-- `EditDraft::current_values`. -/
def currentValues (draft : EditDraft) : DraftValues where
  content := draft.content.value.text
  contexts := draft.contexts.value.text
  tags := draft.tags.value.text
  importance := draft.importance.value.text
  expiry := draft.expiry.value.text
  metadata := draft.metadata.value.text

/-- `EditDraft::dirty`. -/
def dirty (draft : EditDraft) : Bool :=
  draft.currentValues != draft.original

end EditDraft

section Reading

variable [EditorHost]

/-! ## A new draft -/

/-- `editable_metadata_json`. -/
def editableMetadataJson (metadata : Option MemoryMetadata) : String :=
  let field := fun value : Option String => (value.map Json.string).getD .null
  EditorHost.prettyJson (.object
    [("summary", field (metadata.bind (·.summary))),
      ("agent_label", field (metadata.bind (·.agentLabel)))])

/-- The texts that a draft of a memory starts from. -/
def DraftValues.ofMemory (memory : Memory) (metadata : Option MemoryMetadata)
    (contexts : List ContextDescriptor) : DraftValues where
  content := memory.content
  contexts := EditorHost.prettyJson (.array (contexts.map fun context =>
    .string context.id.display))
  tags := EditorHost.compactJson (.array (memory.tags.map .string))
  importance := EditorHost.importanceText memory.importance.value
  expiry := (memory.expiresAt.map Host.toRfc3339).getD ""
  metadata := editableMetadataJson metadata

/-- `EditDraft::new`. -/
def EditDraft.new (memory : Memory) (metadata : Option MemoryMetadata)
    (contexts : List ContextDescriptor) : Except Panic EditDraft := do
  let values := DraftValues.ofMemory memory metadata contexts
  let content ← OwnedText.clone values.content
  let contextsText ← OwnedText.clone values.contexts
  let tags ← OwnedText.clone values.tags
  let importance ← OwnedText.clone values.importance
  let expiry ← OwnedText.clone values.expiry
  let metadataText ← OwnedText.clone values.metadata
  .ok {
    field := .content
    scroll := 0
    content := TextInput.new content
    contexts := TextInput.new contextsText
    tags := TextInput.new tags
    importance := TextInput.new importance
    expiry := TextInput.new expiry
    metadata := TextInput.new metadataText
    original := values
    originalMetadata := metadata }

/-! ## Reading the fields back -/

/-- `optional_json_string`. -/
def optionalJsonString (value : Option Json) (field : String) :
    Except DraftError (Option String) :=
  match value with
  | none | some .null => .ok none
  | some (.string text) =>
      let trimmed := trim text
      .ok (if trimmed = "" then none else some trimmed)
  | some _ => .error ⟨.metadata, field ++ " must be a string or null"⟩

/-- `MetadataFieldPatch`. -/
structure MetadataFieldPatch where
  replacement : Option String
  clear : Bool
deriving DecidableEq

/-- `metadata_field_patch`. -/
def metadataFieldPatch (value : Option Json) (field : String) (existing : Option String) :
    Except DraftError MetadataFieldPatch := do
  match value with
  | none => .ok ⟨none, false⟩
  | some stated =>
      let replacement ← optionalJsonString (some stated) field
      if replacement = existing then .ok ⟨none, false⟩
      else .ok ⟨replacement, replacement.isNone && existing.isSome⟩

/-- The value of a key of an object. -/
def objectGet (fields : List (String × Json)) (key : String) : Option Json :=
  (fields.find? fun field => field.1 == key).map Prod.snd

/-- `parse_metadata_patch`. -/
def parseMetadataPatch (text : String) (existing : Option MemoryMetadata) :
    Except DraftError MetadataPatch := do
  let value ← (EditorHost.readJson text).mapError fun error =>
    (⟨.metadata, "invalid JSON: " ++ error⟩ : DraftError)
  match value with
  | .object fields =>
      match fields.find? fun field => !(field.1 == "summary" || field.1 == "agent_label") with
      | some (key, _) => .error ⟨.metadata, "unknown metadata field: " ++ key⟩
      | none =>
          let summary ← metadataFieldPatch (objectGet fields "summary") "summary"
            (existing.bind (·.summary))
          let agentLabel ← metadataFieldPatch (objectGet fields "agent_label") "agent_label"
            (existing.bind (·.agentLabel))
          .ok {
            scopeKey := none
            summary := summary.replacement
            clearSummary := summary.clear
            agentLabel := agentLabel.replacement
            clearAgentLabel := agentLabel.clear }
  | _ => .error ⟨.metadata, "metadata must be a JSON object"⟩

/-- `MetadataPatch::is_empty`. -/
def MetadataPatch.isEmpty (patch : MetadataPatch) : Bool :=
  patch.scopeKey.isNone && patch.summary.isNone && !patch.clearSummary &&
    patch.agentLabel.isNone && !patch.clearAgentLabel

/-- `Importance::new` of a number in range. -/
def readImportance (text : String) : Except DraftError UnitScore :=
  match EditorHost.readNumber (trim text) with
  | none => .error ⟨.importance, "enter a number from 0.0 to 1.0"⟩
  | some none => .error ⟨.importance, "importance must be from 0.0 to 1.0"⟩
  | some (some value) =>
      if range : 0 ≤ value ∧ value ≤ 1 then .ok ⟨value, range.1, range.2⟩
      else .error ⟨.importance, "importance must be from 0.0 to 1.0"⟩

/-- The edited contexts, where they are identifiers without repetition. -/
def readDraftContexts (text : String) : Except DraftError (List ContextId) :=
  match EditorHost.readContextIds text with
  | none => .error ⟨.contexts, "contexts must be a JSON array of context IDs"⟩
  | some ids => if ids.Nodup then .ok ids else .error ⟨.contexts, "context IDs must be unique"⟩

/-- The edited tags. -/
def readDraftTags (text : String) : Except DraftError (List String) :=
  match EditorHost.readStrings text with
  | none => .error ⟨.tags, "tags must be a JSON array of strings"⟩
  | some tags => .ok tags

/-- The edited expiry; a blank text removes it. -/
def readDraftExpiry (text : String) : Except DraftError (Option Instant) :=
  let trimmed := trim text
  if trimmed = "" then .ok none
  else
    match EditorHost.readRfc3339 trimmed with
    | none => .error ⟨.expiry, "use RFC 3339, for example 2026-08-01T12:00:00Z"⟩
    | some instant => .ok (some instant)

/-- Read a field back unless it still has its first text. -/
def readChanged {α : Type} (current first : String) (read : String → Except DraftError α) :
    Except DraftError (Option α) :=
  if current = first then .ok none else (read current).map some

/-- `EditDraft::parse`. -/
def EditDraft.parse (draft : EditDraft) : Except DraftError ParsedEdit := do
  let content := if draft.content.value.text != draft.original.content then
    some draft.content.value.text else none
  let contextIds ← readChanged draft.contexts.value.text draft.original.contexts readDraftContexts
  let tags ← readChanged draft.tags.value.text draft.original.tags readDraftTags
  let importance ← readChanged draft.importance.value.text draft.original.importance
    readImportance
  let expiresAt ← readChanged draft.expiry.value.text draft.original.expiry readDraftExpiry
  let metadataPatch ← readChanged draft.metadata.value.text draft.original.metadata fun text =>
    parseMetadataPatch text draft.originalMetadata
  .ok {
    update := {
      content
      tags
      accessPolicy := none
      importance
      expiresAt
      confidence := none
      sourceConversation := none
      entities := none }
    metadataPatch := metadataPatch.filter fun patch => !patch.isEmpty
    contextIds }

end Reading

/-! ## Cursors between characters -/

namespace EditDraft

/-- Every input of a draft shows a caret. -/
def Shown (draft : EditDraft) : Prop :=
  ∀ field, ∃ caret, (draft.input field).Shows caret

theorem input_withInput (draft : EditDraft) (field other : EditField) (input : TextInput) :
    (draft.withInput field input).input other =
      if other = field then input else draft.input other := by
  cases field <;> cases other <;> rfl

theorem Shown.withField {draft : EditDraft} (shown : draft.Shown) (field : EditField) :
    ({ draft with field } : EditDraft).Shown := by
  intro other
  rcases shown other with ⟨caret, shows⟩
  cases other <;> exact ⟨caret, shows⟩

theorem Shown.press {draft : EditDraft} (shown : draft.Shown) (keystroke : Keystroke) :
    (∃ next, draft.press keystroke = .ok next ∧ next.Shown) ∨
      draft.press keystroke = .error .capacityOverflow := by
  rcases shown draft.field with ⟨caret, shows⟩
  rcases shows.press_eq keystroke with ⟨input, pressed, inputShows⟩ | full
  · left
    refine ⟨draft.withInput draft.field input, bind_eq_ok.mpr ⟨input, pressed, rfl⟩, ?_⟩
    intro other
    rw [input_withInput]
    split
    · exact ⟨_, inputShows⟩
    · exact shown other
  · right
    have stopped : draft.active.press keystroke = .error .capacityOverflow := full
    rw [EditDraft.press, stopped]
    rfl

theorem Shown.cursorLineFrom {draft : EditDraft} (shown : draft.Shown) (fields : List EditField)
    (line : Nat) : ∃ cursorLine, draft.cursorLineFrom fields line = .ok cursorLine := by
  induction fields generalizing line with
  | nil => exact ⟨line, rfl⟩
  | cons field rest inductionHypothesis =>
      rw [EditDraft.cursorLineFrom]
      split
      · rcases shown field with ⟨caret, shows⟩
        exact ⟨_, bind_eq_ok.mpr ⟨_, shows.sliceTo_cursor, rfl⟩⟩
      · exact inductionHypothesis _

theorem Shown.ensureCursorVisible {draft : EditDraft} (shown : draft.Shown) :
    ∃ scroll, draft.ensureCursorVisible = .ok { draft with scroll } := by
  rcases shown.cursorLineFrom EditField.all 3 with ⟨cursorLine, found⟩
  have located : draft.cursorDocumentLine = .ok cursorLine := found
  rw [EditDraft.ensureCursorVisible, located]
  by_cases above : cursorLine < draft.scroll
  · exact ⟨_, if_pos above⟩
  · by_cases below : draft.scroll + 12 ≤ cursorLine
    · exact ⟨_, (if_neg above).trans (if_pos below)⟩
    · exact ⟨draft.scroll, (if_neg above).trans (if_neg below)⟩

theorem Shown.withScroll {draft : EditDraft} (shown : draft.Shown) (scroll : Nat) :
    ({ draft with scroll } : EditDraft).Shown := by
  intro other
  rcases shown other with ⟨caret, shows⟩
  cases other <;> exact ⟨caret, shows⟩

end EditDraft

end LocalHold
