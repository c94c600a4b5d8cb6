import Mathlib

/-!
# Text, keys and identifiers

Text is compared code point by code point, as the store's binary collation
does.  Trimming follows the Unicode `White_Space` property used by the Rust
standard library; the SQL `trim` function strips the ASCII space only.

Lowercasing, debug quoting and timestamp rendering rest on Unicode tables and
on a calendar library.  They are the operations of the `Host` class, and nothing
is assumed about them unless a statement says so.
-/

namespace LocalHold

/-- A point in time, in nanoseconds since the Unix epoch. -/
abbrev Instant := Int

/-- Text operations that the program calls but does not define. -/
class Host where
  /-- Unicode lowercasing of a string. -/
  toLowercase : String → String
  /-- The RFC 3339 rendering of a timestamp stored in text columns. -/
  toRfc3339 : Instant → String
  /-- The quoted and escaped form used inside messages. -/
  debugText : String → String

/-- The Unicode `White_Space` code points. -/
def isWhitespace (c : Char) : Bool :=
  let code := c.toNat
  (9 ≤ code && code ≤ 13) || code == 32 || code == 0x85 || code == 0xA0 || code == 0x1680 ||
    (0x2000 ≤ code && code ≤ 0x200A) || code == 0x2028 || code == 0x2029 || code == 0x202F ||
    code == 0x205F || code == 0x3000

/-- Strip a class of characters from both ends. -/
def stripBoth (strip : Char → Bool) (text : String) : String :=
  String.ofList ((text.toList.dropWhile strip).rdropWhile strip)

/-- `str::trim`. -/
def trim (text : String) : String :=
  stripBoth isWhitespace text

/-- Text that trims to nothing. -/
def isBlank (text : String) : Bool :=
  trim text == ""

theorem stripBoth_idem (strip : Char → Bool) (text : String) :
    stripBoth strip (stripBoth strip text) = stripBoth strip text := by
  have headKept : ∀ letters : List Char,
      ((letters.dropWhile strip).rdropWhile strip).dropWhile strip =
        (letters.dropWhile strip).rdropWhile strip := by
    intro letters
    rw [List.dropWhile_eq_self_iff]
    intro nonempty
    have leading := List.rdropWhile_prefix strip (l := letters.dropWhile strip)
    have longer : 0 < (letters.dropWhile strip).length :=
      Nat.lt_of_lt_of_le nonempty leading.length_le
    have notStripped :=
      List.dropWhile_eq_self_iff.mp (List.dropWhile_idempotent strip letters) longer
    rw [leading.getElem nonempty]
    exact notStripped
  simp only [stripBoth, String.toList_ofList, headKept, List.rdropWhile_idempotent]

@[simp]
theorem trim_trim (text : String) : trim (trim text) = trim text :=
  stripBoth_idem isWhitespace text

/-- `normalize_context_key`: the exact-match form of a context key. -/
def normalizeContextKey [Host] (value : String) : String :=
  Host.toLowercase (trim value)

@[simp]
theorem normalizeContextKey_trim [Host] (value : String) :
    normalizeContextKey (trim value) = normalizeContextKey value := by
  simp [normalizeContextKey]

/-! ## ULID identifiers -/

/-- The Crockford base-32 digit of a five-bit value. -/
def crockfordDigit (value : Nat) : Char :=
  "0123456789ABCDEFGHJKMNPQRSTVWXYZ".toList.getD value '0'

/-- The 26-character rendering of a ULID, most significant digit first. -/
def encodeUlid (ulid : Nat) : String :=
  String.ofList ((List.range 26).map fun position =>
    crockfordDigit (ulid / 32 ^ (25 - position) % 32))

/-- A memory identifier, backed by a ULID. -/
structure MemoryId where
  ulid : Nat
deriving DecidableEq, Repr, Inhabited

/-- A context identifier, backed by a ULID. -/
structure ContextId where
  ulid : Nat
deriving DecidableEq, Repr, Inhabited

instance : LinearOrder MemoryId :=
  LinearOrder.lift' MemoryId.ulid (by
    rintro ⟨first⟩ ⟨second⟩ equal
    exact congrArg MemoryId.mk equal)

instance : LinearOrder ContextId :=
  LinearOrder.lift' ContextId.ulid (by
    rintro ⟨first⟩ ⟨second⟩ equal
    exact congrArg ContextId.mk equal)

namespace MemoryId

/-- The textual form written into messages and columns. -/
def display (id : MemoryId) : String :=
  encodeUlid id.ulid

end MemoryId

namespace ContextId

/-- The textual form written into messages and columns. -/
def display (id : ContextId) : String :=
  encodeUlid id.ulid

end ContextId

/-! ## An executable host -/

/-- A number with leading zeros. -/
def padded (width value : Nat) : String :=
  let digits := (Nat.toDigits 10 value)
  String.ofList (List.replicate (width - digits.length) '0' ++ digits)

/-- The civil date of a day counted from the Unix epoch, in the proleptic
Gregorian calendar. -/
def civilDate (day : Int) : Int × Nat × Nat :=
  let shifted := day + 719468
  let era := shifted / 146097
  let dayOfEra := (shifted % 146097).toNat
  let yearOfEra := (dayOfEra - dayOfEra / 1460 + dayOfEra / 36524 - dayOfEra / 146096) / 365
  let dayOfYear := dayOfEra - (365 * yearOfEra + yearOfEra / 4 - yearOfEra / 100)
  let shiftedMonth := (5 * dayOfYear + 2) / 153
  let month := if shiftedMonth < 10 then shiftedMonth + 3 else shiftedMonth - 9
  let year : Int := yearOfEra + era * 400
  (if month ≤ 2 then year + 1 else year, month,
    dayOfYear - (153 * shiftedMonth + 2) / 5 + 1)

/-- Fractional seconds with as few digit groups as needed. -/
def fractionText (nanos : Nat) : String :=
  if nanos = 0 then ""
  else if nanos % 1000000 = 0 then "." ++ padded 3 (nanos / 1000000)
  else if nanos % 1000 = 0 then "." ++ padded 6 (nanos / 1000)
  else "." ++ padded 9 nanos

/-- The year of a timestamp; one outside the four-digit years carries a sign. -/
def yearText (year : Int) : String :=
  if 0 ≤ year ∧ year ≤ 9999 then padded 4 year.toNat
  else if year < 0 then "-" ++ padded 4 year.natAbs
  else "+" ++ padded 4 year.toNat

/-- The RFC 3339 rendering of an instant. -/
def rfc3339 (instant : Instant) : String :=
  let seconds := instant / 1000000000
  let nanos := (instant % 1000000000).toNat
  let date := civilDate (seconds / 86400)
  let secondOfDay := (seconds % 86400).toNat
  yearText date.1 ++ "-" ++ padded 2 date.2.1 ++ "-" ++ padded 2 date.2.2 ++ "T" ++
    padded 2 (secondOfDay / 3600) ++ ":" ++ padded 2 (secondOfDay / 60 % 60) ++ ":" ++
    padded 2 (secondOfDay % 60) ++ fractionText nanos ++ "+00:00"

/-- The host operations on ASCII text without quotes or control characters. -/
@[reducible]
def asciiHost : Host where
  toLowercase text := String.ofList (text.toList.map Char.toLower)
  toRfc3339 := rfc3339
  debugText text := "\"" ++ text ++ "\""

example : rfc3339 1704164645000000000 = "2024-01-02T03:04:05+00:00" := by decide

end LocalHold
