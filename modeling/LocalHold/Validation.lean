import LocalHold.Context.Legacy

/-!
# Validation of tool input

The checks of `validation.rs` that the modelled tools run on their fields.
-/

namespace LocalHold

/-- An input field that was refused, with the reason. -/
structure ValidationError where
  field : String
  message : String
deriving DecidableEq, Repr

/-- The first instant that the calendar library represents. -/
def minUtc : Instant :=
  -8334601228800 * 1000000000

/-- The last instant that the calendar library represents. -/
def maxUtc : Instant :=
  8210266876799 * 1000000000 + 999999999

/-- `ttl_seconds_to_expiry`.  The seconds have to fit a signed number and a
duration, and the sum an instant. -/
def ttlSecondsToExpiry (ttlSeconds : Nat) (now : Instant) : Except ValidationError Instant :=
  if 2 ^ 63 ≤ ttlSeconds then
    .error ⟨"ttl_seconds",
      "value is too large: out of range integral type conversion attempted"⟩
  else if 9223372036854775 < ttlSeconds then
    .error ⟨"ttl_seconds", "value is out of range"⟩
  else if minUtc ≤ now + ttlSeconds * 1000000000 ∧ now + ttlSeconds * 1000000000 ≤ maxUtc then
    .ok (now + ttlSeconds * 1000000000)
  else
    .error ⟨"ttl_seconds", "value causes timestamp overflow"⟩

/-- `validate_optional_non_empty`. -/
def validateOptionalNonEmpty (field : String) (value : Option String) :
    Except ValidationError Unit :=
  if value.any isBlank then .error ⟨field, "cannot be empty when provided"⟩ else .ok ()

/-- `normalize_optional_non_empty`. -/
def normalizeOptionalNonEmpty (field : String) (value : Option String) :
    Except ValidationError (Option String) := do
  validateOptionalNonEmpty field value
  return value.map trim

/-- `normalize_legacy_scope_value`. -/
def normalizeLegacyScopeValue (field : String) (value : Option String) :
    Except ValidationError (Option String) := do
  let value ← normalizeOptionalNonEmpty field value
  match value with
  | none => return none
  | some key =>
      (validateLegacyScopeKey key).mapError fun message => ⟨field, message⟩
      return some key

end LocalHold
