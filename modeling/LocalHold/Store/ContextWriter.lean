import LocalHold.Store.Memberships
import LocalHold.Context.Legacy
import LocalHold.Relational.Query
import Mathlib.Data.List.Destutter

/-!
# Writing governed contexts

The mutations of `context_store.rs` on contexts, grants, kinds and policies.
None of them writes a memory, its metadata or its memberships.
-/

namespace LocalHold

open Relational Transition Transition.Txn

variable [Host]

/-! ## Duplicate protection -/

/-- `context_tokens`. -/
def contextTokens (value : String) : List String :=
  ((((normalizeContextKey value).toList.splitOnP fun c => !c.isAlphanum).filter fun token =>
    !token.isEmpty).map String.ofList).dedup

/-- `context_trigrams`. -/
def contextTrigrams (value : String) : List String :=
  let letters := (normalizeContextKey value).toList
  if letters.length < 3 then
    if letters.isEmpty then [] else [String.ofList letters]
  else
    ((List.range (letters.length - 2)).map fun start =>
      String.ofList ((letters.drop start).take 3)).dedup

/-- `normalized_set_overlap`, as an exact ratio. -/
def normalizedSetOverlap (left right : List String) : ℚ :=
  let denominator := max left.length right.length
  if denominator = 0 then 0 else ((left.filter right.contains).length : ℚ) / denominator

/-- `ContextSimilarityQuery::score`. -/
def contextSimilarity (query key displayName : String) (aliases : List String) : ℚ :=
  ((key :: displayName :: aliases).map fun surface =>
    max (normalizedSetOverlap (contextTokens query) (contextTokens surface))
      (normalizedSetOverlap (contextTrigrams query) (contextTrigrams surface))).foldl max 0

/-- A context to be created. -/
structure ContextCreateDraft where
  id : ContextId
  kind : ContextKind
  key : String
  normalizedKey : String
  displayName : String
  description : Option String
  ownerPrincipal : String
  guidance : Option String
  parentId : Option ContextId
  aliases : List (String × String)
  identities : List ContextIdentity
  resolverHints : List String
  confirmDistinctFrom : List ContextId
  enforceFuzzyConfirmation : Bool
  frozen : Bool
deriving DecidableEq

/-- A visible context compared with a draft. -/
structure FuzzyCandidate where
  id : ContextId
  key : String
  score : ℚ
deriving DecidableEq

/-- Best score first, then key, then id. -/
def FuzzyCandidate.before (first second : FuzzyCandidate) : Bool :=
  decide (second.score < first.score) ||
    (first.score == second.score &&
      (decide (first.key < second.key) || (first.key == second.key && decide (first.id ≤ second.id))))

/-- The candidates that creation must confirm as distinct. -/
def fuzzyConfirmations (draft : ContextCreateDraft) (existing : List ContextRecord) :
    List ContextId :=
  let query := draft.key ++ " " ++ draft.displayName
  let scored := existing.map fun record =>
    FuzzyCandidate.mk record.context.id record.context.key
      (contextSimilarity query record.context.key record.context.displayName record.aliases)
  let close := scored.filter fun candidate =>
    normalizeContextKey candidate.key != draft.normalizedKey && decide (18 / 25 ≤ candidate.score)
  let ranked := (close.mergeSort FuzzyCandidate.before).destutter fun first second =>
    first.id ≠ second.id
  (ranked.take maxContextConfirmations).map (·.id)

/-- `validate_fuzzy_confirmation`. -/
def validateFuzzyConfirmation (draft : ContextCreateDraft) (existing : List ContextRecord) :
    StoreM Unit :=
  require (!draft.enforceFuzzyConfirmation ||
      (fuzzyConfirmations draft existing).mergeSort (fun first second => decide (first ≤ second)) ==
        (draft.confirmDistinctFrom.dedup).mergeSort fun first second => decide (first ≤ second))
    (.conflict ("fuzzy context candidates changed; resolve candidates and submit a fresh " ++
      "confirm_distinct_from set"))

/-! ## Validation -/

omit [Host] in
/-- A failed validation becomes a conflict. -/
def orConflict (result : Except String Unit) : StoreM Unit :=
  match result with
  | .ok _ => pure ()
  | .error message => fails (.conflict message)

/-- `validate_identity`. -/
def validateIdentity (identity : ContextIdentity) : StoreM Unit := do
  require (isIdentityScheme identity.scheme)
    (.conflict ("unsupported context identity scheme " ++ Host.debugText identity.scheme))
  require (identity.scheme != "namespaced_id" ||
      identity.identityNamespace.any fun value => value != "")
    (.conflict "namespaced_id requires a non-empty namespace")
  require (identity.scheme == "namespaced_id" || identity.identityNamespace.isNone)
    (.conflict ("identity scheme " ++ Host.debugText identity.scheme ++
      " does not accept a namespace"))
  require (identity.fingerprint.utf8ByteSize == 64 &&
      identity.fingerprint.toList.all fun c =>
        c.isDigit || ('a' ≤ c && c ≤ 'f') || ('A' ≤ c && c ≤ 'F'))
    (.conflict "context identity fingerprint must be a 64-character hexadecimal SHA-256 digest")
  require (!isBlank identity.redactedLabel &&
      decide (identity.redactedLabel.utf8ByteSize ≤ maxContextDisplayNameLen) &&
      identity.redactedLabel.toList.all fun c =>
        !(c.toNat < 32 || (127 ≤ c.toNat && c.toNat ≤ 159)))
    (.conflict "context identity redacted label cannot be blank")

/-- `validate_create_draft`. -/
def validateCreateDraft (draft : ContextCreateDraft) (audit : ContextAuditDraft) :
    StoreM Unit := do
  validateAuditActor audit draft.ownerPrincipal
  require (!isBlank draft.key && decide (draft.key.utf8ByteSize ≤ maxContextSurfaceLen) &&
      draft.normalizedKey == normalizeContextKey draft.key)
    (.conflict "context key and normalized_key are inconsistent")
  require (!isBlank draft.displayName &&
      decide (draft.displayName.utf8ByteSize ≤ maxContextDisplayNameLen))
    (.conflict "context display name cannot be blank")
  require ((draft.description.toList ++ draft.guidance.toList).all fun value =>
      decide (value.utf8ByteSize ≤ maxContextDescriptionLen))
    (.conflict "context description or guidance exceeds the supported length")
  require (!isBlank draft.ownerPrincipal) (.conflict "context owner principal cannot be blank")
  require (!draft.frozen || draft.ownerPrincipal == legacySystemPrincipal)
    (.conflict "only the legacy system principal may create frozen compatibility contexts")
  require (draft.parentId != some draft.id) (.conflict "a context cannot be its own parent")
  require (decide (draft.aliases.length ≤ maxContextRefs) &&
      decide (draft.resolverHints.length ≤ maxContextHints) &&
      decide (draft.confirmDistinctFrom.length ≤ maxContextConfirmations))
    (.conflict "context aliases, hints, or confirmations exceed protocol limits")
  require ((draft.aliases.all fun entry =>
      !isBlank entry.1 && decide (entry.1.utf8ByteSize ≤ maxContextSurfaceLen) &&
        entry.2 == normalizeContextKey entry.1) &&
      decide (draft.aliases.map Prod.snd).Nodup)
    (.conflict "context aliases must be non-empty, normalized, and unique")
  require (draft.resolverHints.all fun hint =>
      !isBlank hint && decide (hint.utf8ByteSize ≤ maxContextSurfaceLen))
    (.conflict "context resolver hints must be non-empty and bounded")
  draft.identities.forM validateIdentity

/-! ## Rows -/

/-- `INSERT INTO contexts` with its foreign keys, uniqueness and check. -/
def insertContextRow (context : ContextDefinition) : StoreM Unit := do
  let parents ← reads fun db =>
    db.contextKinds.contains context.kind && context.parentId.all db.contexts.contains
  require parents foreignKeyError
  require (context.parentId != some context.id) (.database "CHECK constraint failed: contexts")
  let normalizedKey := normalizeContextKey context.key
  let keyFree ← reads fun db =>
    !db.contexts.rows.any fun row =>
      row.context.ownerPrincipal == context.ownerPrincipal && row.context.kind == context.kind &&
        row.normalizedKey == normalizedKey
  require keyFree
    (uniqueError "contexts.owner_principal, contexts.kind, contexts.normalized_key")
  let next ← reads fun db => db.contexts.insert? ⟨context, normalizedKey⟩
  let contexts ← expect next (uniqueError "contexts.id")
  writes fun db => { db with contexts := contexts }

omit [Host] in
/-- `INSERT INTO context_aliases`. -/
def insertAliasRow (row : AliasRow) : StoreM Unit := do
  let parent ← reads fun db => db.contexts.contains row.contextId
  require parent foreignKeyError
  let next ← reads fun db => db.contextAliases.insert? row
  let aliases ← expect next
    (uniqueError "context_aliases.context_id, context_aliases.normalized_alias")
  writes fun db => { db with contextAliases := aliases }

omit [Host] in
/-- `INSERT INTO context_identities`. -/
def insertIdentityRow (row : IdentityRow) : StoreM Unit := do
  let parent ← reads fun db => db.contexts.contains row.contextId
  require parent foreignKeyError
  let unclaimed ← reads fun db =>
    !db.contextIdentities.rows.any fun other =>
      other.ownerPrincipal == row.ownerPrincipal && other.kind == row.kind &&
        other.identity.scheme == row.identity.scheme &&
        other.identity.identityNamespace == row.identity.identityNamespace &&
        other.identity.fingerprint == row.identity.fingerprint
  require unclaimed (uniqueError ("context_identities.owner_principal, " ++
    "context_identities.kind, context_identities.scheme, context_identities.namespace, " ++
    "context_identities.fingerprint"))
  let next ← reads fun db => db.contextIdentities.insert? row
  let identities ← expect next (uniqueError ("context_identities.context_id, " ++
    "context_identities.scheme, context_identities.namespace, context_identities.fingerprint"))
  writes fun db => { db with contextIdentities := identities }

omit [Host] in
/-- `INSERT INTO context_resolver_hints`. -/
def insertHintRow (row : HintRow) : StoreM Unit := do
  let parent ← reads fun db => db.contexts.contains row.contextId
  require parent foreignKeyError
  let next ← reads fun db => db.contextHints.insert? row
  let hints ← expect next
    (uniqueError "context_resolver_hints.context_id, context_resolver_hints.normalized_hint")
  writes fun db => { db with contextHints := hints }

omit [Host] in
/-- `INSERT INTO context_grants`. -/
def insertGrantRow (row : GrantRow) : StoreM Unit := do
  let parent ← reads fun db => db.contexts.contains row.contextId
  require parent foreignKeyError
  let next ← reads fun db => db.contextGrants.insert? row
  let grants ← expect next
    (uniqueError "context_grants.context_id, context_grants.grantee_principal")
  writes fun db => { db with contextGrants := grants }

/-- Non-empty surfaces with their normal forms; the first of each form. -/
def normalizedSurfaces (values : List String) : List (String × String) :=
  let entries := (values.map fun value => (value, normalizeContextKey value)).filter fun entry =>
    entry.2 != ""
  (entries.reverse.pwFilter fun first second => first.2 ≠ second.2).reverse

omit [Host] in
/-- `UPDATE contexts SET … WHERE id = ?`; whether a row was affected. -/
def updateContext (id : ContextId) (change : ContextDefinition → ContextDefinition)
    (keepsId : ∀ context, (change context).id = context.id := by intro _; rfl) :
    StoreM Bool := do
  let affected ← reads fun db => db.contexts.contains id
  writes fun db =>
    { db with
      contexts := db.contexts.update id (fun row => { row with context := change row.context })
        (by intro row; exact keepsId row.context) }
  return affected

/-! ## Creation -/

/-- The aliases of a context, ordered by normalized form. -/
def Db.contextAliasTexts (db : Db) (id : ContextId) : List String :=
  (orderBy (fun first second => decide (first.normalizedAlias ≤ second.normalizedAlias))
    (db.contextAliases.select fun row => decide (row.contextId = id))).map (·.aliasText)

/-- Whether a visible context of the kind holds the key as its key or alias. -/
def Db.exactKeyOrAlias (db : Db) (principal : String) (kind : ContextKind)
    (normalizedKey : String) : Bool :=
  db.contexts.rows.any fun row =>
    row.context.kind == kind && db.contextVisible row.context principal &&
      (row.normalizedKey == normalizedKey ||
        db.contextAliases.rows.any fun entry =>
          entry.contextId == row.context.id && entry.normalizedAlias == normalizedKey)

/-- Whether a visible context of the kind holds the identity. -/
def Db.exactIdentity (db : Db) (principal : String) (kind : ContextKind)
    (identity : ContextIdentity) : Bool :=
  db.contextIdentities.rows.any fun row =>
    row.identity.scheme == identity.scheme &&
      row.identity.identityNamespace == identity.identityNamespace &&
      row.identity.fingerprint == identity.fingerprint &&
      match db.contexts.find? row.contextId with
      | some owner => owner.context.kind == kind && db.contextVisible owner.context principal
      | none => false

/-- The visible active contexts of a kind, in key order, with their aliases. -/
def Db.visibleActiveOfKind (db : Db) (principal : String) (kind : ContextKind) :
    List ContextRecord :=
  ((db.contexts.select fun row =>
      row.context.kind == kind && row.context.lifecycle == .active &&
        db.contextVisible row.context principal).mergeSort fun first second =>
    decide (first.normalizedKey < second.normalizedKey) ||
      (first.normalizedKey == second.normalizedKey &&
        decide (first.context.id ≤ second.context.id))).map fun row =>
    ⟨row.context, db.contextAliasTexts row.context.id, [], []⟩

omit [Host] in
/-- The context a draft describes. -/
def ContextCreateDraft.toDefinition (draft : ContextCreateDraft) (now : Instant) :
    ContextDefinition where
  id := draft.id
  kind := draft.kind
  key := draft.key
  displayName := draft.displayName
  description := draft.description
  ownerPrincipal := draft.ownerPrincipal
  guidance := draft.guidance
  parentId := draft.parentId
  lifecycle := .active
  frozen := draft.frozen
  createdAt := now
  updatedAt := now

/-- The checks a draft passes inside the creating transaction. -/
def validateCreation (draft : ContextCreateDraft) : StoreM Unit := do
  let kindRow ← reads fun db => db.contextKinds.find? draft.kind
  let definition ← expect kindRow
    (.conflict ("unknown context kind " ++ Host.debugText draft.kind.name))
  require definition.enabled
    (.conflict ("context kind " ++ Host.debugText draft.kind.name ++ " is disabled"))
  onSome draft.parentId fun parentId => do
    let usable ← reads fun db => db.contextUseAllowed parentId draft.ownerPrincipal true
    require usable (.conflict ("parent context " ++ parentId.display ++
      " is unavailable, archived, or not granted"))
  let exact ← reads fun db =>
    db.exactKeyOrAlias draft.ownerPrincipal draft.kind draft.normalizedKey ||
      draft.identities.any (db.exactIdentity draft.ownerPrincipal draft.kind)
  require (!exact)
    (.conflict "exact visible context key, alias, or identity already exists")
  let existing ← reads fun db => db.visibleActiveOfKind draft.ownerPrincipal draft.kind
  validateFuzzyConfirmation draft existing
  let duplicate ← reads fun db =>
    db.contexts.rows.any fun row =>
      row.context.id == draft.id ||
        (row.context.ownerPrincipal == draft.ownerPrincipal && row.context.kind == draft.kind &&
          row.normalizedKey == draft.normalizedKey)
  require (!duplicate) (.conflict "context ID or owner/kind/key already exists")

/-- `create_context_conn`. -/
def createContext (draft : ContextCreateDraft) (audit : ContextAuditDraft) (now : Instant) :
    StoreM ContextDefinition := do
  validateCreateDraft draft audit
  validateCreation draft
  insertContextRow (draft.toDefinition now)
  draft.aliases.forM fun entry => insertAliasRow ⟨draft.id, entry.1, entry.2, now⟩
  draft.identities.forM fun identity =>
    insertIdentityRow ⟨draft.id, draft.ownerPrincipal, draft.kind, identity, now⟩
  (normalizedSurfaces draft.resolverHints).forM fun entry =>
    insertHintRow ⟨draft.id, entry.1, entry.2, now⟩
  insertContextAudit audit (some draft.id) none now
  return draft.toDefinition now

/-! ## Mutations by the owner -/

/-- `require_mutable_owned_context`. -/
def requireMutableOwnedContext (id : ContextId) (principal : String) :
    StoreM ContextDefinition := do
  let row ← reads fun db => db.contexts.find? id
  let found ← expect row (.notFound ("context not found: " ++ id.display))
  require (found.context.ownerPrincipal == principal)
    (.conflict ("principal " ++ Host.debugText principal ++ " does not own context " ++
      id.display))
  require (!found.context.frozen)
    (.conflict ("context " ++ id.display ++ " is a frozen legacy compatibility context"))
  return found.context

omit [Host] in
/-- The parent link of a stored context. -/
def Db.contextParent (db : Db) (id : ContextId) : Option ContextId :=
  (db.contexts.find? id).bind (·.context.parentId)

omit [Host] in
/-- The recursive ancestor query: a context and the contexts above it. -/
def Db.ancestorIds (db : Db) : Nat → ContextId → List ContextId
  | 0, _ => []
  | fuel + 1, id =>
      if db.contexts.contains id then
        id :: match db.contextParent id with
          | some parentId => db.ancestorIds fuel parentId
          | none => []
      else []

omit [Host] in
/-- Whether hanging a context below another would close a cycle.  The query
visits each context once, so the number of contexts bounds its depth. -/
def Db.wouldCloseCycle (db : Db) (id parentId : ContextId) : Bool :=
  (db.ancestorIds (db.contexts.rows.length + 1) parentId).contains id

/-- `set_context_parent_conn`. -/
def setContextParent (id : ContextId) (parentId : Option ContextId) (principal : String)
    (audit : ContextAuditDraft) (now : Instant) : StoreM Unit := do
  validateAuditActor audit principal
  let _ ← requireMutableOwnedContext id principal
  require (parentId != some id) (.conflict "a context cannot be its own parent")
  onSome parentId fun parent => do
    let usable ← reads fun db => db.contextUseAllowed parent principal true
    require usable (.conflict ("parent context " ++ parent.display ++
      " is unavailable, archived, or not granted"))
    let cycle ← reads fun db => db.wouldCloseCycle id parent
    require (!cycle) (.conflict ("setting context " ++ id.display ++ " parent to " ++
      parent.display ++ " would create a hierarchy cycle"))
  let changed ← updateContext id fun context =>
    { context with parentId := parentId, updatedAt := now }
  require changed (.conflict ("context " ++ id.display ++ " changed during parent update"))
  insertContextAudit audit (some id) none now

/-- `set_context_lifecycle_conn`. -/
def setContextLifecycle (id : ContextId) (lifecycle : ContextLifecycle) (principal : String)
    (audit : ContextAuditDraft) (now : Instant) : StoreM Unit := do
  validateAuditActor audit principal
  let _ ← requireMutableOwnedContext id principal
  let changed ← updateContext id fun context =>
    { context with lifecycle := lifecycle, updatedAt := now }
  require changed (.conflict ("context " ++ id.display ++ " changed during lifecycle update"))
  insertContextAudit audit (some id) none now

omit [Host] in
/-- `normalize_explicit_grantee`. -/
def normalizeExplicitGrantee (grantee : String) : StoreM String := do
  require (trim grantee != "" && !isReservedPrincipal (trim grantee))
    (.conflict "ordinary context grants require one explicit non-reserved principal")
  return trim grantee

omit [Host] in
/-- `normalize_explicit_grantees`. -/
def normalizeExplicitGrantees (grantees : List String) : StoreM (List String) :=
  grantees.foldlM (fun normalized grantee => do
    let next ← normalizeExplicitGrantee grantee
    require (!normalized.contains next) (.conflict "context grant principals must be unique")
    return normalized ++ [next]) []

/-- `grant_context_use_conn`. -/
def grantContextUse (id : ContextId) (grantee principal : String) (audit : ContextAuditDraft)
    (now : Instant) : StoreM Unit := do
  validateAuditActor audit principal
  let normalized ← normalizeExplicitGrantee grantee
  let _ ← requireMutableOwnedContext id principal
  writes fun db =>
    { db with contextGrants := db.contextGrants.upsert ⟨id, normalized, principal, now⟩ }
  insertContextAudit audit (some id) none now

/-- `revoke_context_use`. -/
def revokeContextUse (id : ContextId) (grantee principal : String) (audit : ContextAuditDraft)
    (now : Instant) : StoreM Unit := do
  validateAuditActor audit principal
  let normalized ← normalizeExplicitGrantee grantee
  let _ ← requireMutableOwnedContext id principal
  writes fun db => { db with contextGrants := db.contextGrants.delete (id, normalized) }
  insertContextAudit audit (some id) none now

/-- `replace_context_grants`. -/
def replaceContextGrants (id : ContextId) (grantees : List String) (principal : String)
    (audit : ContextAuditDraft) (now : Instant) : StoreM Unit := do
  let normalized ← normalizeExplicitGrantees grantees
  validateAuditActor audit principal
  let _ ← requireMutableOwnedContext id principal
  writes fun db =>
    { db with
      contextGrants := db.contextGrants.deleteWhere fun row => decide (row.contextId = id) }
  normalized.forM fun grantee => insertGrantRow ⟨id, grantee, principal, now⟩
  insertContextAudit audit (some id) none now

/-- Replacement values for the mutable fields of a context. -/
structure ContextDefinitionPatch where
  displayName : String
  description : Option String
  guidance : Option String
  aliases : List String
  identities : List ContextIdentity
  resolverHints : List String
deriving DecidableEq

omit [Host] in
/-- `validate_definition_patch_surfaces`. -/
def validateDefinitionPatchSurfaces (patch : ContextDefinitionPatch) : StoreM Unit := do
  require (!isBlank patch.displayName &&
      decide (patch.displayName.utf8ByteSize ≤ maxContextDisplayNameLen))
    (.conflict "context display name is blank or too long")
  require ((patch.description.toList ++ patch.guidance.toList).all fun value =>
      decide (value.utf8ByteSize ≤ maxContextDescriptionLen))
    (.conflict "context description or guidance exceeds the supported length")
  require (decide (patch.aliases.length ≤ maxContextRefs) &&
      decide (patch.identities.length ≤ maxContextRefs) &&
      decide (patch.resolverHints.length ≤ maxContextHints))
    (.conflict "context aliases, identities, or hints exceed protocol limits")
  require ((patch.aliases ++ patch.resolverHints).all fun value =>
      decide (value.utf8ByteSize ≤ maxContextSurfaceLen))
    (.conflict "context alias or hint exceeds the supported length")

/-- A replacement set of surfaces: trimmed, non-empty and unique. -/
def uniqueSurfaces (values : List String) (message : String) :
    StoreM (List (String × String)) := do
  let entries := values.map fun value => (trim value, normalizeContextKey (trim value))
  require ((entries.all fun entry => entry.1 != "" && entry.2 != "") &&
      decide (entries.map Prod.snd).Nodup)
    (.conflict message)
  return entries

/-- Validate a replacement set of identities, each stated once. -/
def validateUniqueIdentities (identities : List ContextIdentity) : StoreM Unit := do
  let _ ← identities.foldlM (fun seen identity => do
    validateIdentity identity
    let locator := (identity.scheme, identity.identityNamespace, identity.fingerprint)
    require (!seen.contains locator) (.conflict "context identities must be unique")
    return locator :: seen) []

omit [Host] in
/-- An optional text with blank values dropped. -/
def trimmedText (value : Option String) : Option String :=
  (value.map trim).filter fun text => text != ""

/-- `update_context_definition`. -/
def updateContextDefinition (id : ContextId) (patch : ContextDefinitionPatch)
    (principal : String) (audit : ContextAuditDraft) (now : Instant) : StoreM Unit := do
  validateAuditActor audit principal
  validateDefinitionPatchSurfaces patch
  let aliases ← uniqueSurfaces patch.aliases
    "context aliases must be non-empty and unique after normalization"
  validateUniqueIdentities patch.identities
  let hints ← uniqueSurfaces patch.resolverHints
    "context resolver hints must be non-empty and unique after normalization"
  let context ← requireMutableOwnedContext id principal
  let _ ← updateContext id fun stored =>
    { stored with
      displayName := trim patch.displayName
      description := trimmedText patch.description
      guidance := trimmedText patch.guidance
      updatedAt := now }
  writes fun db =>
    { db with
      contextAliases := db.contextAliases.deleteWhere fun row => decide (row.contextId = id) }
  aliases.forM fun entry => insertAliasRow ⟨id, entry.1, entry.2, now⟩
  writes fun db =>
    { db with
      contextIdentities :=
        db.contextIdentities.deleteWhere fun row => decide (row.contextId = id) }
  patch.identities.forM fun identity =>
    insertIdentityRow ⟨id, context.ownerPrincipal, context.kind, identity, now⟩
  writes fun db =>
    { db with contextHints := db.contextHints.deleteWhere fun row => decide (row.contextId = id) }
  hints.forM fun entry => insertHintRow ⟨id, entry.1, entry.2, now⟩
  insertContextAudit audit (some id) none now

/-! ## Kinds and policies -/

/-- `upsert_context_kind`. -/
def upsertContextKind (kind : ContextKind) (displayName : String) (enabled : Bool)
    (principal : String) (audit : ContextAuditDraft) (now : Instant) : StoreM Unit := do
  validateAuditActor audit principal
  require (principal == operatorPrincipal)
    (.conflict ("context kind mutation requires principal " ++ Host.debugText operatorPrincipal))
  require (trim displayName != "") (.conflict "context kind display name cannot be blank")
  writes fun db =>
    let existing := db.contextKinds.find? kind
    { db with
      contextKinds := db.contextKinds.upsert
        { kind := kind
          displayName := trim displayName
          builtin := (existing.map (·.builtin)).getD false
          enabled := enabled
          createdAt := (existing.map (·.createdAt)).getD now
          updatedAt := now } }
  insertContextAudit audit none none now

/-- `validate_policy_default_sqlite`. -/
def validatePolicyDefault (kind : ContextKind) (policy : ContextKindPolicy)
    (principal : String) : StoreM Unit := do
  let known ← reads fun db => db.contextKinds.contains kind
  require known (.conflict ("unknown context kind " ++ Host.debugText kind.name))
  onSome policy.defaultContextId fun defaultId => do
    let matching ← reads fun db =>
      (db.contexts.find? defaultId).any fun row =>
        row.context.lifecycle == .active && row.context.kind == kind
    require matching
      (.conflict "policy default_context_id must reference an active context of the same kind")
    let usable ← reads fun db =>
      principal == "" || db.contextUseAllowed defaultId principal true
    require usable
      (.conflict "principal policy default_context_id is not authorized for that principal")

/-- `upsert_context_kind_policy`. -/
def upsertContextKindPolicy (layer : ContextPolicyLayer) (policyPrincipal : String)
    (kind : ContextKind) (policy : ContextKindPolicy) (principal : String)
    (audit : ContextAuditDraft) (now : Instant) : StoreM Unit := do
  validateAuditActor audit principal
  orConflict policy.validate
  require (layer == .principal || policyPrincipal == "")
    (.conflict "operator policy principal must be empty")
  require (layer == .principal || principal == operatorPrincipal)
    (.conflict ("operator policy mutation requires principal " ++
      Host.debugText operatorPrincipal))
  require (layer == .operator || policyPrincipal == principal)
    (.conflict "a principal policy may only customize its own principal")
  let storedPrincipal := if layer = .operator then "" else principal
  validatePolicyDefault kind policy storedPrincipal
  writes fun db =>
    { db with kindPolicies := db.kindPolicies.upsert ⟨layer, storedPrincipal, kind, policy, now⟩ }
  insertContextAudit audit none none now

/-- `upsert_context_anchor_policy`. -/
def upsertContextAnchorPolicy (anchorId : ContextId) (policyPrincipal : String)
    (policy : ContextAnchorPolicy) (principal : String) (audit : ContextAuditDraft)
    (now : Instant) : StoreM Unit := do
  validateAuditActor audit principal
  require (policyPrincipal == principal)
    (.conflict "an anchor policy may only customize its own principal")
  orConflict policy.validate
  let usable ← reads fun db => db.contextUseAllowed anchorId principal true
  require usable (.conflict "anchor context is unavailable, archived, or not granted")
  policy.kinds.rows.forM fun entry => do
    let kind ← expect (ContextKind.new? entry.1)
      (.serialization "context kind must contain 1-64 lowercase ASCII letters, digits, '-' or '_'")
    validatePolicyDefault kind entry.2 principal
  writes fun db =>
    { db with anchorPolicies := db.anchorPolicies.upsert ⟨anchorId, principal, policy, now⟩ }
  insertContextAudit audit (some anchorId) none now

/-! ## Rollback of implicit contexts -/

omit [Host] in
/-- The policies in which a context may be named as a default. -/
def Db.storedPolicies (db : Db) : List ContextKindPolicy :=
  db.kindPolicies.rows.map (·.policy) ++
    db.anchorPolicies.rows.flatMap fun row => row.policy.kinds.rows.map Prod.snd

omit [Host] in
/-- The audit row written when a legacy context is created implicitly. -/
def ContextAuditRow.isImplicitCreation (row : ContextAuditRow) (id : ContextId)
    (principal : String) : Bool :=
  row.contextId == some id && row.actorPrincipal == principal &&
    row.action == "legacy_scope_context_created" && row.memoryId == none

omit [Host] in
/-- Whether nothing refers to a context created for a legacy scope. -/
def Db.unreferencedLegacyContext (db : Db) (id : ContextId) (principal : String) : Bool :=
  ((db.contexts.find? id).any fun row =>
      row.context.ownerPrincipal == principal && row.context.kind == ContextKind.custom &&
        !row.context.frozen) &&
    !(db.memoryContexts.rows.any fun row => row.contextId == id) &&
    !(db.contexts.rows.any fun row => row.context.parentId == some id) &&
    !(db.contextGrants.rows.any fun row => row.contextId == id) &&
    !(db.contextRelations.rows.any fun row =>
      row.fromContextId == id || row.toContextId == id) &&
    !(db.contextAliases.rows.any fun row => row.contextId == id) &&
    !(db.contextIdentities.rows.any fun row => row.contextId == id) &&
    !(db.contextHints.rows.any fun row => row.contextId == id) &&
    !(db.anchorPolicies.rows.any fun row => row.anchorContextId == id) &&
    !(db.storedPolicies.any fun policy => policy.defaultContextId == some id) &&
    (db.contextAudit.filter fun row => row.contextId == some id).length == 1 &&
    db.contextAudit.any fun row => row.isImplicitCreation id principal

omit [Host] in
/-- `rollback_unreferenced_legacy_context`. -/
def rollbackUnreferencedLegacyContext (id : ContextId) (principal : String) : StoreM Bool := do
  let removable ← reads fun db => db.unreferencedLegacyContext id principal
  if removable then
    writes fun db =>
      { db with
        contexts := db.contexts.delete id
        contextAudit := db.contextAudit.filter fun row => !row.isImplicitCreation id principal }
    return true
  else
    return false

end LocalHold
