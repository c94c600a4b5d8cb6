import LocalHold.Relational.Table
import LocalHold.Ordered.OrdSet
import LocalHold.Text
import Mathlib.Data.String.Basic

/-!
# Governed contexts

The records of `context.rs`: context kinds, definitions, safe identities,
layered kind policies and anchor overrides.  A kind carries the proof that its
name is in the stable kind-key alphabet.
-/

namespace LocalHold

/-- Owner of the compatibility contexts migrated from the former scope registry. -/
def legacySystemPrincipal : String := "@localhold/legacy-system"

/-- Grant target of frozen contexts that were globally selectable. -/
def legacyAllPrincipalsGrant : String := "*"

/-- The local principal that may change operator-layer policy. -/
def operatorPrincipal : String := "operator"

/-- The principal used when anonymous writes are enabled. -/
def anonymousPrincipal : String := "anonymous"

/-- The compatibility scope of memories without memberships. -/
def unresolvedContextKey : String := "inbox/unresolved"

/-- `str::to_ascii_lowercase`. -/
def asciiLowercase (text : String) : String :=
  String.ofList (text.toList.map Char.toLower)

/-- Whether a character belongs to the kind-key alphabet. -/
def isKindChar (c : Char) : Bool :=
  ('a' ≤ c && c ≤ 'z') || ('0' ≤ c && c ≤ '9') || c == '-' || c == '_'

/-- Whether a normalized text is a context kind. -/
def isKindName (name : String) : Bool :=
  name != "" && name.utf8ByteSize ≤ 64 && name.toList.all isKindChar

/-- A stable context kind. -/
structure ContextKind where
  name : String
  valid : isKindName name = true
deriving DecidableEq

namespace ContextKind

theorem name_injective : Function.Injective ContextKind.name := by
  rintro ⟨first, _⟩ ⟨second, _⟩ equal
  cases equal
  rfl

instance : LinearOrder ContextKind :=
  LinearOrder.lift' ContextKind.name name_injective

/-- `ContextKind::new`: trim, lowercase and validate. -/
def new? (value : String) : Option ContextKind :=
  let normalized := asciiLowercase (trim value)
  if valid : isKindName normalized = true then some ⟨normalized, valid⟩ else none

/-- The built-in kind of compatibility contexts. -/
def custom : ContextKind :=
  ⟨"custom", by decide⟩

/-- The built-in domain kind. -/
def domain : ContextKind :=
  ⟨"domain", by decide⟩

/-- The built-in organization kind. -/
def organization : ContextKind :=
  ⟨"organization", by decide⟩

/-- The built-in project kind. -/
def project : ContextKind :=
  ⟨"project", by decide⟩

end ContextKind

/-- Lifecycle state of a context. -/
inductive ContextLifecycle where
  | active
  | archived
deriving DecidableEq, Repr

/-- One durable governed context. -/
structure ContextDefinition where
  id : ContextId
  kind : ContextKind
  key : String
  displayName : String
  description : Option String
  ownerPrincipal : String
  guidance : Option String
  parentId : Option ContextId
  lifecycle : ContextLifecycle
  frozen : Bool
  createdAt : Instant
  updatedAt : Instant
deriving DecidableEq

/-- Fingerprinted identity metadata persisted for a context. -/
structure ContextIdentity where
  scheme : String
  identityNamespace : Option String
  fingerprint : String
  redactedLabel : String
deriving DecidableEq

/-- A context definition with its resolver metadata. -/
structure ContextRecord where
  context : ContextDefinition
  aliases : List String
  identities : List ContextIdentity
  hints : List String
deriving DecidableEq

/-- One context kind managed by the operator. -/
structure ContextKindDefinition where
  kind : ContextKind
  displayName : String
  builtin : Bool
  enabled : Bool
  createdAt : Instant
  updatedAt : Instant
deriving DecidableEq

/-- Persisted policy layer. -/
inductive ContextPolicyLayer where
  | operator
  | principal
deriving DecidableEq, Repr

/-- Policy controls for one kind; an absent field inherits. -/
structure ContextKindPolicy where
  allowed : Option Bool
  required : Option Bool
  allowedCompanionKinds : Option (List ContextKind)
  allowedIdentitySchemes : Option (List String)
  agentCreation : Option Bool
  requireIdentity : Option Bool
  defaultContextId : Option ContextId
  includeDescendants : Option Bool
  guidance : Option String
deriving DecidableEq

/-- `ContextKindPolicy::default()`. -/
def ContextKindPolicy.default : ContextKindPolicy :=
  ⟨none, none, none, none, none, none, none, none, none⟩

/-- Stored operator or principal policy for one kind. -/
structure ContextKindPolicyRecord where
  layer : ContextPolicyLayer
  principal : String
  kind : ContextKind
  policy : ContextKindPolicy
  updatedAt : Instant
deriving DecidableEq

/-- Per-kind overrides attached to one anchor context, keyed by kind name. -/
structure ContextAnchorPolicy where
  kinds : Relational.Table (Prod.fst : String × ContextKindPolicy → String)
deriving DecidableEq

/-- The override an anchor policy states for a kind. -/
def ContextAnchorPolicy.get (policy : ContextAnchorPolicy) (kind : ContextKind) :
    Option ContextKindPolicy :=
  (policy.kinds.find? kind.name).map Prod.snd

/-- Stored anchor override visible to its principal. -/
structure ContextAnchorPolicyRecord where
  anchorContextId : ContextId
  principal : String
  policy : ContextAnchorPolicy
  updatedAt : Instant
deriving DecidableEq

end LocalHold
