import LocalHold.Relational.Truth
import LocalHold.Store.Query

/-!
# Access rules in SQL

Provenance and access policy are stored as JSON documents, and three statements
repeat the write rule on them: the claim of memories to embed again, the listing
of consolidation candidates and the purge of expired memories.  The conditions
are stated here on the documents, with their missing values, and compared with
the rule that the rest of the program applies to the decoded values.
-/

namespace LocalHold

open Relational

/-! ## Stored documents -/

/-- A field that is written only when it has a value. -/
def optionalField (name : String) (value : Option String) : List (String × Json) :=
  (value.map fun text => (name, Json.string text)).toList

/-- The stored form of a provenance. -/
def Provenance.document (provenance : Provenance) : Json :=
  .object (optionalField "source_agent" provenance.sourceAgent ++
    optionalField "source_conversation" provenance.sourceConversation ++
    optionalField "origin_conversation" provenance.originConversation ++
    optionalField "source_user" provenance.sourceUser)

/-- The stored name of a redactable field. -/
def RedactableField.display : RedactableField → String
  | .content => "content"
  | .tags => "tags"
  | .provenance => "provenance"
  | .entities => "entities"
  | .importance => "importance"
  | .expiresAt => "expires_at"
  | .unknown name => name

/-- The stored form of an access policy. -/
def AccessPolicy.document : AccessPolicy → Json
  | .publicPolicy => .object [("type", .string "public")]
  | .restricted allowed =>
      .object [("type", .string "restricted"), ("allowed", .array (allowed.map .string))]
  | .redacted fields =>
      .object [("type", .string "redacted"),
        ("visible_fields", .array (fields.map fun field => .string field.display))]

/-- A member of a document. -/
def Json.member? (document : Json) (name : String) : Option Json :=
  match document with
  | .object fields => (fields.find? fun field => field.1 == name).map (·.2)
  | _ => none

/-- The text of a document that is one. -/
def Json.text? : Json → Option String
  | .string text => some text
  | _ => none

/-- `json_extract(document, '$.name')`, where the documents hold text or
nothing. -/
def Json.extract (document : Json) (name : String) : Option String :=
  (document.member? name).bind Json.text?

/-- The values of `json_each(document, '$.name')`. -/
def Json.each (document : Json) (name : String) : List (Option String) :=
  match document.member? name with
  | some (.array items) => items.map Json.text?
  | _ => []

@[simp]
theorem Provenance.extract_sourceAgent (provenance : Provenance) :
    provenance.document.extract "source_agent" = provenance.sourceAgent := by
  cases agent : provenance.sourceAgent <;> cases conversation : provenance.sourceConversation <;>
    cases origin : provenance.originConversation <;> cases user : provenance.sourceUser <;>
    simp [Provenance.document, optionalField, Json.extract, Json.member?, Json.text?, agent,
      conversation, origin, user]

@[simp]
theorem AccessPolicy.extract_type (policy : AccessPolicy) :
    policy.document.extract "type" = some (match policy with
      | .publicPolicy => "public"
      | .restricted _ => "restricted"
      | .redacted _ => "redacted") := by
  cases policy <;> rfl

@[simp]
theorem AccessPolicy.each_allowed (allowed : List String) :
    (AccessPolicy.restricted allowed).document.each "allowed" = allowed.map some := by
  simp [AccessPolicy.document, Json.each, Json.member?, Json.text?, Function.comp_def]

/-! ## Conditions -/

/-- The write rule as the statements spell it. -/
def sqlWriteCondition (provenance policy : Json) (principal : Option String) : Truth :=
  (Truth.equals (provenance.extract "source_agent") principal).disj
    (((Truth.equals (policy.extract "type") (some "public")).conj
        (Truth.isNull (provenance.extract "source_agent"))).disj
      ((Truth.equals (policy.extract "type") (some "restricted")).conj
        (Truth.someRow (policy.each "allowed") fun value => Truth.equals value principal)))

/-- The condition of `claim_for_reembed_conn`. -/
def reembedWriteCondition (provenance policy : Json) (principal : Option String) : Truth :=
  (Truth.isNull principal).disj (sqlWriteCondition provenance policy principal)

/-- The condition of `list_memories_with_embeddings`. -/
def consolidationWriteCondition (provenance policy : Json) (principal : String) : Truth :=
  sqlWriteCondition provenance policy (some principal)

/-- The condition of `evict_expired_conn`. -/
def purgeWriteCondition (provenance policy : Json) (principal : Option String) : Truth :=
  (Truth.isNull principal).disj (sqlWriteCondition provenance policy principal)

/-- The condition that filtered reads add for an anonymous caller. -/
def anonymousCondition (policy : Json) : Truth :=
  Truth.equals (policy.extract "type") (some "public")

theorem any_equals_some (values : List String) (text : String) :
    ((values.map some).any fun value => (Truth.equals value (some text)).accepts) =
      values.contains text := by
  rw [List.any_map, List.contains_eq_any_beq]
  congr 1
  funext value
  simp [beq_eq_decide, eq_comm]

/-- The conditions accept exactly the rows that the write rule admits. -/
theorem accepts_sqlWriteCondition (provenance : Provenance) (policy : AccessPolicy)
    (caller : String) :
    (sqlWriteCondition provenance.document policy.document (some caller)).accepts =
      writeAccessAllowed provenance policy caller := by
  have owner : decide (provenance.sourceAgent = some caller) =
      (provenance.sourceAgent == some caller) := (beq_eq_decide _ _).symm
  rw [sqlWriteCondition, Truth.accepts_disj, Truth.accepts_disj, Truth.accepts_conj,
    Truth.accepts_conj, Truth.accepts_isNull, Truth.accepts_equals_some,
    Truth.accepts_equals_some, Truth.accepts_equals_some, Provenance.extract_sourceAgent,
    AccessPolicy.extract_type, Truth.accepts_someRow, owner]
  cases policy with
  | publicPolicy => simp [writeAccessAllowed, Bool.or_comm]
  | restricted allowed =>
      rw [AccessPolicy.each_allowed, any_equals_some]
      simp [writeAccessAllowed]
  | redacted fields => simp [writeAccessAllowed]

theorem accepts_reembedWriteCondition (provenance : Provenance) (policy : AccessPolicy)
    (caller : String) :
    (reembedWriteCondition provenance.document policy.document (some caller)).accepts =
      writeAccessAllowed provenance policy caller := by
  rw [reembedWriteCondition, Truth.accepts_disj, accepts_sqlWriteCondition]
  rfl

theorem accepts_purgeWriteCondition (provenance : Provenance) (policy : AccessPolicy)
    (caller : String) :
    (purgeWriteCondition provenance.document policy.document (some caller)).accepts =
      writeAccessAllowed provenance policy caller := by
  rw [purgeWriteCondition, Truth.accepts_disj, accepts_sqlWriteCondition]
  rfl

/-- The row filter that the store model runs is the SQL condition. -/
theorem sqlWriteFilter_eq_accepts (principal : Option String) (row : MemoryRow) :
    sqlWriteFilter principal row =
      (reembedWriteCondition row.provenance.document row.accessPolicy.document
        principal).accepts := by
  cases principal with
  | none =>
      rw [reembedWriteCondition, Truth.accepts_disj]
      rfl
  | some caller =>
      rw [accepts_reembedWriteCondition]
      cases policy : row.accessPolicy with
      | publicPolicy => simp [sqlWriteFilter, writeAccessAllowed, policy, Bool.or_comm]
      | restricted allowed => simp [sqlWriteFilter, writeAccessAllowed, policy]
      | redacted fields => simp [sqlWriteFilter, writeAccessAllowed, policy]

/-! ## Reading -/

/-- `memory_read_allowed`. -/
def memoryReadAllowed (provenance : Provenance) (policy : AccessPolicy) (principal : String) :
    Bool :=
  match policy with
  | .publicPolicy => true
  | .redacted _ => !isBlank principal
  | .restricted allowed =>
      !isBlank principal &&
        (provenance.sourceAgent == some principal || allowed.contains principal)

theorem effectiveCaller_of_blank {caller : String} (blank : isBlank caller = true) :
    effectiveCaller (some caller) = none := by
  simp [effectiveCaller, blank]

theorem effectiveCaller_of_nonblank {caller : String} (nonblank : isBlank caller = false) :
    effectiveCaller (some caller) = some caller := by
  simp [effectiveCaller, nonblank]

theorem memoryReadAllowed_iff (provenance : Provenance) (policy : AccessPolicy)
    (caller : String) :
    memoryReadAllowed provenance policy caller = true ↔
      accessLevel provenance policy (some caller) ≠ .denied := by
  cases blank : isBlank caller with
  | true =>
      have nobody := effectiveCaller_of_blank blank
      cases policy <;> simp [memoryReadAllowed, accessLevel, nobody, blank]
  | false =>
      have named := effectiveCaller_of_nonblank blank
      cases policy with
      | publicPolicy => simp [memoryReadAllowed, accessLevel]
      | restricted allowed =>
          simp only [memoryReadAllowed, accessLevel, named, blank]
          by_cases admitted : provenance.sourceAgent = some caller ∨ caller ∈ allowed
          · simp [admitted]
          · simp [admitted]
      | redacted fields =>
          simp only [memoryReadAllowed, accessLevel, named, blank]
          by_cases owner : provenance.sourceAgent = some caller <;> simp [owner]

/-- An anonymous caller reads nothing but public memories. -/
theorem accepts_anonymousCondition {provenance : Provenance} {policy : AccessPolicy}
    (visible : accessLevel provenance policy none ≠ .denied) :
    (anonymousCondition policy.document).accepts = true := by
  cases policy with
  | publicPolicy => rfl
  | restricted allowed => exact absurd rfl visible
  | redacted fields => exact absurd rfl visible

/-- A named caller who may write a memory reads all of it. -/
theorem accessLevel_full_of_writeAccess {provenance : Provenance} {policy : AccessPolicy}
    {caller : String} (nonblank : isBlank caller = false)
    (writable : writeAccessAllowed provenance policy caller = true) :
    accessLevel provenance policy (some caller) = .full := by
  have named := effectiveCaller_of_nonblank nonblank
  cases policy with
  | publicPolicy => rfl
  | restricted allowed =>
      simp only [writeAccessAllowed, Bool.or_eq_true, beq_iff_eq, List.contains_iff_mem] at writable
      simp only [accessLevel, named]
      exact if_pos writable
  | redacted fields =>
      simp only [writeAccessAllowed, beq_iff_eq] at writable
      simp only [accessLevel, named]
      exact if_pos writable

end LocalHold
