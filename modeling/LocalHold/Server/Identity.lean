import Mathlib.Data.List.Infix
import LocalHold.Coding.GenericUri
import LocalHold.Server.Protocol

/-!
# Context identities

Git remotes and URIs are normalized over a URL parser.  The fingerprint of an
identity is the hash of its scheme, a NUL and its canonical text, and these bytes
determine the scheme and the canonical text.
-/

namespace LocalHold

open Transition.Checked

/-- A URL as the parser sees it; `text` is its serialization. -/
structure Url where
  scheme : String
  username : String
  password : Option String
  host : Option String
  port : Option Nat
  path : String
  query : Option String
  fragment : Option String
  text : String

/-! ## Git remotes -/

/-- `str::split_once`. -/
def splitOnce (separator : Char) (text : String) : Option (String × String) :=
  match text.toList.dropWhile (· != separator) with
  | [] => none
  | _ :: rest => some (String.ofList (text.toList.takeWhile (· != separator)), String.ofList rest)

/-- The text contains `://`. -/
def hasSchemeSeparator (text : String) : Bool :=
  decide ([':', '/', '/'] <:+: text.toList)

/-- The URL of a remote: of the text itself, or of its SSH form. -/
def parseGitRemote (parse : String → Option Url) (raw : String) : Except String Url :=
  if raw = "" then
    .error "git_remote value cannot be blank"
  else if hasSchemeSeparator raw then
    match parse raw with
    | none => .error "git_remote must be an absolute remote URL"
    | some url => .ok url
  else
    match (splitOnce ':' raw).filter fun split => split.1.toList.contains '@' && split.2 != "" with
    | none => .error "git_remote must be an absolute URL or SSH scp-style remote"
    | some (authority, path) =>
        match parse ("ssh://" ++ authority ++ "/" ++ path) with
        | none => .error "git_remote SSH form is invalid"
        | some url => .ok url

/-- Cut one `.git` off the end, in any case. -/
def stripGitSuffix (path : String) : String :=
  let suffixStart := path.toList.length - 4
  if (path.toList.drop suffixStart).map Char.toLower = ['.', 'g', 'i', 't'] then
    String.ofList (path.toList.take suffixStart)
  else
    path

/-- The host of a remote with its port. -/
def remoteAuthority (host : String) : Option Nat → String
  | none => host
  | some port => s!"{host}:{port}"

/-- The canonical text and the label of a URL. -/
def gitRemoteIdentity (parsed : Url) : Except String (String × String) :=
  if parsed.scheme = "file" then
    .error "local paths are resolver hints, not durable identities"
  else
    match parsed.host with
    | none => .error "git_remote requires a host"
    | some host =>
        let path := stripGitSuffix (stripBoth (· == '/') parsed.path)
        if path = "" then
          .error "git_remote requires a repository path"
        else
          let authority := remoteAuthority (asciiLowercase host) parsed.port
          .ok (authority ++ "/" ++ path, authority ++ "/…#")

/-- `normalize_git_remote`. -/
def normalizeGitRemote (parse : String → Option Url) (raw : String) :
    Except String (String × String) :=
  parseGitRemote parse (trim raw) >>= gitRemoteIdentity

/-! ## URIs -/

/-- `normalize_uri`.  The setters of the source change nothing once the checks
have passed, so that the canonical text is the serialization as parsed. -/
def normalizeUri (parse : String → Option Url) (raw : String) :
    Except String (String × String) :=
  match parse (trim raw) with
  | none => .error "uri must be absolute"
  | some parsed =>
      if parsed.scheme ∉ ["https", "ssh", "git"] then
        .error "uri scheme is not allowed by the default identity policy"
      else if parsed.username ≠ "" ∨ parsed.password.isSome ∨ parsed.query.isSome ∨
          parsed.fragment.isSome then
        .error "uri credentials, query, and fragment are not permitted"
      else
        match parsed.host with
        | none => .error "uri requires an authority host"
        | some host => .ok (parsed.text, parsed.scheme ++ "://" ++ host ++ "/…#")

/-- Identities over a URL parser and a hash function. -/
abbrev parsedIdentities (parse : String → Option Url) (sha256Hex : String → String) :
    IdentityHost where
  normalizeGitRemote := normalizeGitRemote parse
  normalizeUri := normalizeUri parse
  sha256Hex := sha256Hex

/-! ## The hashed bytes -/

/-- The text whose bytes are hashed. -/
def hashedText (scheme canonical : String) : String :=
  scheme ++ "\u0000" ++ canonical

/-- The scheme and the canonical text of an input, as `normalize_context_identity`
finds them before it hashes. -/
def hashedIdentity [IdentityHost] (input : ContextIdentityInput) :
    Except String (String × String) := do
  validateIdentityInputLimits input
  let scheme := asciiLowercase (trim input.scheme)
  let stated := (input.identityNamespace.map trim).filter fun value => value != ""
  let canonical ← canonicalIdentity scheme stated input.value
  return (scheme, canonical.1)

variable [IdentityHost]

/-- An accepted identity is the hash of its scheme and its canonical text. -/
theorem of_normalizeContextIdentity {input : ContextIdentityInput} {identity : ContextIdentity}
    (accepted : normalizeContextIdentity input = .ok identity) :
    ∃ canonical, hashedIdentity input = .ok (identity.scheme, canonical) ∧
      identity.fingerprint = IdentityHost.sha256Hex (hashedText identity.scheme canonical) := by
  obtain ⟨_, within, accepted⟩ := bind_eq_ok.mp accepted
  obtain ⟨canonical, canonicalEq, accepted⟩ := bind_eq_ok.mp accepted
  have made := Except.ok.inj accepted
  refine ⟨canonical.1, ?_, ?_⟩
  · rw [← made, hashedIdentity, within]
    dsimp only [bind, Except.bind]
    rw [canonicalEq]
    rfl
  · rw [← made, hashedText]

omit [IdentityHost] in
/-- Two texts with a NUL behind a first part without one are equal part by part. -/
theorem nul_separated {first second left right : String}
    (firstFree : Char.ofNat 0 ∉ first.toList) (secondFree : Char.ofNat 0 ∉ second.toList)
    (same : first ++ "\u0000" ++ left = second ++ "\u0000" ++ right) :
    first = second ∧ left = right := by
  have letters := congrArg String.toList same
  have nul : ("\u0000" : String).toList = [Char.ofNat 0] := rfl
  simp only [String.toList_append, nul, List.append_assoc, List.singleton_append] at letters
  have free : ∀ text : String, Char.ofNat 0 ∉ text.toList →
      ∀ letter ∈ text.toList, (letter != Char.ofNat 0) = true := by
    intro text textFree letter member
    refine bne_iff_ne.mpr ?_
    rintro rfl
    exact textFree member
  have ends : ∀ rest : List Char, ∀ letter ∈ (Char.ofNat 0 :: rest).head?,
      (letter != Char.ofNat 0) = false := by
    rintro rest letter ⟨⟩
    rfl
  have heads := congrArg (List.takeWhile (· != Char.ofNat 0)) letters
  have tails := congrArg (List.dropWhile (· != Char.ofNat 0)) letters
  rw [Coding.takeWhile_word (free first firstFree) (ends _),
    Coding.takeWhile_word (free second secondFree) (ends _)] at heads
  rw [Coding.dropWhile_word (free first firstFree) (ends _),
    Coding.dropWhile_word (free second secondFree) (ends _)] at tails
  exact ⟨String.toList_inj.mp heads, String.toList_inj.mp (List.cons.inj tails).2⟩

omit [IdentityHost] in
theorem nul_free_of_validNamespace {value : String} (valid : validNamespace value = true) :
    Char.ofNat 0 ∉ value.toList := by
  rw [validNamespace, Bool.and_eq_true, List.all_eq_true] at valid
  intro member
  have inside := valid.2 _ member
  exact absurd inside (by decide)

/-- The canonical text of an opaque value. -/
theorem of_canonicalIdentity_namespaced {identityNamespace : Option String} {value : String}
    {canonical : String × String × Option String}
    (accepted : canonicalIdentity "namespaced_id" identityNamespace value = .ok canonical) :
    ∃ stated, identityNamespace = some stated ∧ validNamespace stated = true ∧
      canonical.1 = stated ++ "\u0000" ++ trim value := by
  unfold canonicalIdentity at accepted
  rw [if_neg (by decide), if_neg (by decide), if_pos rfl] at accepted
  cases identityNamespace with
  | none => cases accepted
  | some stated =>
      obtain ⟨passed, accepted⟩ := of_ensure_bind accepted
      cases accepted
      exact ⟨stated, rfl, (Bool.and_eq_true_iff.mp passed).1, rfl⟩

/-- An accepted scheme is one of three. -/
theorem scheme_of_canonicalIdentity {scheme value : String} {identityNamespace : Option String}
    {canonical : String × String × Option String}
    (accepted : canonicalIdentity scheme identityNamespace value = .ok canonical) :
    scheme = "git_remote" ∨ scheme = "uri" ∨ scheme = "namespaced_id" := by
  unfold canonicalIdentity at accepted
  split at accepted
  · next isGit => exact Or.inl isGit
  · split at accepted
    · next isUri => exact Or.inr (Or.inl isUri)
    · split at accepted
      · next isId => exact Or.inr (Or.inr isId)
      · cases accepted

/-- The namespace of an input, trimmed, unless it is blank. -/
def statedNamespace (input : ContextIdentityInput) : Option String :=
  (input.identityNamespace.map trim).filter fun value => value != ""

theorem of_hashedIdentity {input : ContextIdentityInput} {hashed : String × String}
    (accepted : hashedIdentity input = .ok hashed) :
    ∃ canonical, canonicalIdentity hashed.1 (statedNamespace input) input.value = .ok canonical ∧
      canonical.1 = hashed.2 := by
  obtain ⟨_, -, accepted⟩ := bind_eq_ok.mp accepted
  obtain ⟨canonical, canonicalEq, accepted⟩ := bind_eq_ok.mp accepted
  have made := Except.ok.inj accepted
  rw [← made]
  exact ⟨canonical, canonicalEq, rfl⟩

/-- Equal bytes are hashed only for equal schemes and canonical texts, and for opaque
values only for equal namespaces and values. -/
theorem hashed_separates {left right : ContextIdentityInput} {leftHashed rightHashed : String × String}
    (leftAccepted : hashedIdentity left = .ok leftHashed)
    (rightAccepted : hashedIdentity right = .ok rightHashed)
    (same : (hashedText leftHashed.1 leftHashed.2).toUTF8 =
      (hashedText rightHashed.1 rightHashed.2).toUTF8) :
    leftHashed = rightHashed ∧
      (leftHashed.1 = "namespaced_id" →
        left.identityNamespace.map trim = right.identityNamespace.map trim ∧
          trim left.value = trim right.value) := by
  obtain ⟨leftScheme, leftText⟩ := leftHashed
  obtain ⟨rightScheme, rightText⟩ := rightHashed
  obtain ⟨leftCanonical, leftEq, rfl⟩ := of_hashedIdentity leftAccepted
  obtain ⟨rightCanonical, rightEq, rfl⟩ := of_hashedIdentity rightAccepted
  have schemeFree : ∀ {scheme value : String} {stated : Option String}
      {canonical : String × String × Option String},
      canonicalIdentity scheme stated value = .ok canonical → Char.ofNat 0 ∉ scheme.toList := by
    intro scheme value stated canonical accepted
    rcases scheme_of_canonicalIdentity accepted with rfl | rfl | rfl
    all_goals decide
  obtain ⟨schemes, texts⟩ := nul_separated (schemeFree leftEq) (schemeFree rightEq)
    (String.toByteArray_inj.mp same)
  dsimp only at schemes texts
  subst schemes
  refine ⟨by rw [texts], ?_⟩
  rintro rfl
  obtain ⟨leftStated, leftGiven, leftValid, leftSpelled⟩ :=
    of_canonicalIdentity_namespaced leftEq
  obtain ⟨rightStated, rightGiven, rightValid, rightSpelled⟩ :=
    of_canonicalIdentity_namespaced rightEq
  rw [leftSpelled, rightSpelled] at texts
  obtain ⟨namespaces, values⟩ := nul_separated (nul_free_of_validNamespace leftValid)
    (nul_free_of_validNamespace rightValid) texts
  refine ⟨?_, values⟩
  rw [(Option.filter_eq_some_iff.mp leftGiven).1, (Option.filter_eq_some_iff.mp rightGiven).1,
    namespaces]

end LocalHold
