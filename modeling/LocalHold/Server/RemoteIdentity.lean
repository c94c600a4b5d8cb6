import LocalHold.Server.Identity

/-!
# Identities of git remotes

With a parser that splits URLs into their standard components, the identity of a
remote is determined by its host, its port and the path of the repository.
-/

namespace LocalHold

open Coding Transition.Checked

/-! ## Standard components -/

/-- The default ports of the schemes that have one. -/
def defaultPort (scheme : String) : Option Nat :=
  if scheme = "http" ∨ scheme = "ws" then some 80
  else if scheme = "https" ∨ scheme = "wss" then some 443
  else if scheme = "ftp" then some 21
  else none

/-- The scheme of a remote in lower case. -/
def remoteScheme (uri : GenericUri) : String :=
  asciiLowercase (String.ofList uri.scheme)

/-- The port of a remote, unless it is the default port of the scheme. -/
def remotePort (uri : GenericUri) : Option Nat :=
  if uri.port = defaultPort (remoteScheme uri) then none else uri.port

/-- The schemes whose hosts are decoded as domains. -/
def isSpecialScheme (scheme : String) : Bool :=
  ["http", "https", "ws", "wss", "ftp"].contains scheme

/-- A well-formed URI that names no local file. -/
structure IsRemote (uri : GenericUri) : Prop where
  wellFormed : uri.WellFormed
  notFile : remoteScheme uri ≠ "file"

/-- The text of a remote. -/
def remoteText (uri : GenericUri) : String :=
  String.ofList uri.text

/-- The parser reads the host of a URL by the kind of its scheme and refuses the URL
when it cannot; otherwise it splits the URL into its components: scheme, host, the port
unless it is the default one, and the path. -/
structure ReadsComponents (parse : String → Option Url) (readHost : Bool → String → Option String) :
    Prop where
  refused : ∀ uri, IsRemote uri →
    readHost (isSpecialScheme (remoteScheme uri)) (String.ofList uri.host) = none →
    parse (remoteText uri) = none
  components : ∀ uri host, IsRemote uri →
    readHost (isSpecialScheme (remoteScheme uri)) (String.ofList uri.host) = some host →
    ∃ url, parse (remoteText uri) = some url ∧ url.scheme = remoteScheme uri ∧
      url.host = some host ∧ url.port = remotePort uri ∧
      (url.path = String.ofList uri.path ∨ uri.path = [] ∧ url.path = "/")
  domains : ∀ name, isDomain name = true →
    (readHost true (String.ofList name)).map asciiLowercase =
      some (asciiLowercase (String.ofList name))
  names : ∀ name, isName name = true →
    readHost false (String.ofList name) = some (String.ofList name)

/-- The parser splits a well-formed URL into its standard components.  A domain is read
up to case, and any name is kept where the scheme does not decode it. -/
def StandardUrls (parse : String → Option Url) : Prop :=
  ∃ readHost, ReadsComponents parse readHost

/-! ## The identity of a remote -/

/-- What the identity of a remote is made of: the host as it is read, the port and the
path. -/
def remoteIdentity (host : Option String) (port : Option Nat) (path : List Char) :
    Except String (String × String) :=
  match host with
  | none => .error "git_remote must be an absolute remote URL"
  | some host =>
      let path := stripGitSuffix (stripBoth (· == '/') (String.ofList path))
      if path = "" then
        .error "git_remote requires a repository path"
      else
        let authority := remoteAuthority (asciiLowercase host) port
        .ok (authority ++ "/" ++ path, authority ++ "/…#")

/-- Hosts that differ in case make one identity. -/
theorem remoteIdentity_of_lowercase {first second : Option String} {port : Option Nat}
    {path : List Char} (same : first.map asciiLowercase = second.map asciiLowercase) :
    remoteIdentity first port path = remoteIdentity second port path := by
  cases first with
  | none =>
      cases second with
      | none => rfl
      | some host => cases same
  | some host =>
      cases second with
      | none => cases same
      | some other =>
          have lowered : asciiLowercase host = asciiLowercase other := Option.some.inj same
          rw [remoteIdentity, remoteIdentity, lowered]

/-- Only the stripped path counts. -/
theorem remoteIdentity_of_path {host : Option String} {port : Option Nat}
    {first second : List Char}
    (same : stripGitSuffix (stripBoth (· == '/') (String.ofList second)) =
      stripGitSuffix (stripBoth (· == '/') (String.ofList first))) :
    remoteIdentity host port second = remoteIdentity host port first := by
  cases host with
  | none => rfl
  | some host => rw [remoteIdentity, remoteIdentity, same]

theorem trim_of_graphic {text : List Char}
    (graphic : ∀ letter ∈ text, isGraphic letter = true) :
    trim (String.ofList text) = String.ofList text := by
  have visible : ∀ letter ∈ text, isWhitespace letter = false := by
    intro letter member
    have inside := graphic letter member
    rw [isGraphic, Bool.and_eq_true, decide_eq_true_eq, decide_eq_true_eq] at inside
    simp only [isWhitespace, Bool.or_eq_false_iff, Bool.and_eq_false_iff, decide_eq_false_iff_not,
      beq_eq_false_iff_ne]
    omega
  have front : text.dropWhile isWhitespace = text := by
    rw [List.dropWhile_eq_self_iff]
    intro nonempty
    simp [visible]
  have back : text.rdropWhile isWhitespace = text := by
    rw [List.rdropWhile_eq_self_iff]
    intro nonempty
    simp [visible]
  rw [trim, stripBoth, String.toList_ofList, front, back]

theorem hasSchemeSeparator_remoteText (uri : GenericUri) :
    hasSchemeSeparator (remoteText uri) = true := by
  rw [hasSchemeSeparator, decide_eq_true_eq, remoteText, String.toList_ofList]
  refine ⟨uri.scheme, uri.authority ++
    (uri.path ++ (behind '?' uri.query ++ behind '#' uri.fragment)), ?_⟩
  rw [GenericUri.text, List.append_assoc]
  rfl

variable {parse : String → Option Url} {readHost : Bool → String → Option String}
  {uri : GenericUri}

/-- The host of a remote, as it is read. -/
def readRemoteHost (readHost : Bool → String → Option String) (uri : GenericUri) : Option String :=
  readHost (isSpecialScheme (remoteScheme uri)) (String.ofList uri.host)

/-- A name is read up to case; under a scheme that decodes hosts, a domain is. -/
theorem ReadsComponents.lowercase_host (reads : ReadsComponents parse readHost)
    (name : isName uri.host = true)
    (domain : isSpecialScheme (remoteScheme uri) = true → isDomain uri.host = true) :
    (readRemoteHost readHost uri).map asciiLowercase =
      (some (String.ofList uri.host)).map asciiLowercase := by
  rw [readRemoteHost]
  cases special : isSpecialScheme (remoteScheme uri) with
  | true => exact reads.domains uri.host (domain special)
  | false => rw [reads.names uri.host name]

theorem gitRemoteIdentity_of_components {url : Url} {host : String} (remote : IsRemote uri)
    (scheme : url.scheme = remoteScheme uri) (hostEq : url.host = some host)
    (port : url.port = remotePort uri)
    (path : url.path = String.ofList uri.path ∨ uri.path = [] ∧ url.path = "/") :
    gitRemoteIdentity url = remoteIdentity (some host) (remotePort uri) uri.path := by
  have paths : stripBoth (· == '/') url.path =
      stripBoth (· == '/') (String.ofList uri.path) := by
    rcases path with same | ⟨empty, root⟩
    · rw [same]
    · rw [empty, root]
      rfl
  rw [gitRemoteIdentity, if_neg (by rw [scheme]; exact remote.notFile), hostEq]
  dsimp only
  rw [port, paths, remoteIdentity]

theorem normalizeGitRemote_remoteText (reads : ReadsComponents parse readHost)
    (remote : IsRemote uri) :
    normalizeGitRemote parse (remoteText uri) =
      remoteIdentity (readRemoteHost readHost uri) (remotePort uri) uri.path := by
  have nonempty : remoteText uri ≠ "" := by
    intro empty
    have separated := hasSchemeSeparator_remoteText uri
    rw [empty] at separated
    exact absurd separated (by decide)
  rw [normalizeGitRemote, remoteText, trim_of_graphic remote.wellFormed.text_graphic, ← remoteText,
    parseGitRemote, if_neg nonempty, if_pos (hasSchemeSeparator_remoteText uri)]
  cases hostEq : readRemoteHost readHost uri with
  | none =>
      rw [reads.refused uri remote hostEq]
      rfl
  | some host =>
      obtain ⟨url, parsed, scheme, urlHost, port, path⟩ :=
        reads.components uri host remote hostEq
      rw [parsed]
      exact gitRemoteIdentity_of_components remote scheme urlHost port path

/-! ## The scp form -/

/-- `user@host:path`. -/
def scpText (user host path : List Char) : String :=
  String.ofList ((user ++ '@' :: host) ++ ':' :: path)

/-- The SSH URL that the scp form stands for. -/
def scpUri (user host path : List Char) : GenericUri :=
  ⟨['s', 's', 'h'], some user, host, none, '/' :: path, none, none⟩

theorem remotePort_scpUri (user host path : List Char) : remotePort (scpUri user host path) = none :=
  ite_self _

/-- The scp form of a remote is a remote. -/
theorem isRemote_scpUri {user path : List Char} (remote : IsRemote uri)
    (userChars : ∀ letter ∈ user, isPlainChar letter = true) (pathEq : uri.path = '/' :: path) :
    IsRemote (scpUri user uri.host path) := by
  have wellFormed := remote.wellFormed
  have scheme : (scpUri user uri.host path).scheme = ['s', 's', 'h'] := rfl
  refine ⟨?_, by rw [remoteScheme, scheme]; decide⟩
  exact {
    schemeStart := by
      rw [scheme]
      exact (Option.all_eq_true _ _).mp (by decide +kernel)
    schemeNonempty := by
      rw [scheme]
      exact List.cons_ne_nil _ _
    schemeChars := by
      rw [scheme]
      exact List.all_eq_true.mp (by decide +kernel)
    userInfoChars := by
      rintro info ⟨⟩ letter member
      rw [isUserInfoChar, userChars letter member, Bool.true_or]
    hostKind := wellFormed.hostKind
    portBound := nofun
    pathStart := by
      rw [scpUri, ← pathEq]
      exact wellFormed.pathStart
    pathChars := by
      rw [scpUri, ← pathEq]
      exact wellFormed.pathChars
    pathSegments := by
      rw [scpUri, ← pathEq]
      exact wellFormed.pathSegments
    queryChars := nofun
    fragmentChars := nofun }

theorem scpText_graphic {user path : List Char} (remote : IsRemote (scpUri user uri.host path)) :
    ∀ letter ∈ (user ++ '@' :: uri.host) ++ ':' :: path, isGraphic letter = true := by
  have visible := remote.wellFormed.text_graphic
  have colon : isGraphic ':' = true := by decide
  intro letter member
  rcases List.mem_append.mp member with inAuthority | behindHost
  · exact visible letter (by simp [scpUri, GenericUri.text, GenericUri.authority,
      GenericUri.hostText, behind] at inAuthority ⊢; tauto)
  · rcases List.mem_cons.mp behindHost with rfl | inPath
    · exact colon
    · exact visible letter (by simp [scpUri, GenericUri.text, inPath])

theorem splitOnce_scpText {user host path : List Char}
    (userChars : ∀ letter ∈ user, isPlainChar letter = true)
    (hostChars : ∀ letter ∈ host, isPlainChar letter = true) :
    splitOnce ':' (scpText user host path) =
      some (String.ofList (user ++ '@' :: host), String.ofList path) := by
  have free : ∀ letter ∈ user ++ '@' :: host, (letter != ':') = true := by
    intro letter member
    rcases List.mem_append.mp member with inUser | behindUser
    · exact bne_of_kind (by decide) (userChars letter inUser)
    · rcases List.mem_cons.mp behindUser with rfl | inHost
      · rfl
      · exact bne_of_kind (by decide) (hostChars letter inHost)
  have ends : ∀ letter ∈ (':' :: path).head?, (letter != ':') = false := by
    rintro letter ⟨⟩
    rfl
  rw [splitOnce, scpText, String.toList_ofList, dropWhile_word free ends, takeWhile_word free ends]

theorem normalizeGitRemote_scpText (reads : ReadsComponents parse readHost)
    {user path : List Char} (remote : IsRemote uri) (pathEq : uri.path = '/' :: path)
    (nonempty : path ≠ []) (userChars : ∀ letter ∈ user, isPlainChar letter = true)
    (name : isName uri.host = true)
    (noSeparator : hasSchemeSeparator (scpText user uri.host path) = false) :
    normalizeGitRemote parse (scpText user uri.host path) =
      remoteIdentity (some (String.ofList uri.host)) none uri.path := by
  have sshRemote := isRemote_scpUri remote userChars pathEq
  have opaqueHost : readRemoteHost readHost (scpUri user uri.host path) =
      some (String.ofList uri.host) := by
    have notSpecial : isSpecialScheme (remoteScheme (scpUri user uri.host path)) = false := by
      rw [remoteScheme, show (scpUri user uri.host path).scheme = ['s', 's', 'h'] from rfl]
      decide +kernel
    rw [readRemoteHost, notSpecial]
    exact reads.names uri.host name
  obtain ⟨url, parsed, scheme, host, port, urlPath⟩ :=
    reads.components _ _ sshRemote opaqueHost
  have filled : scpText user uri.host path ≠ "" := by
    intro empty
    have letters := congrArg String.toList empty
    rw [scpText, String.toList_ofList] at letters
    simp at letters
  have sshText : "ssh://" ++ String.ofList (user ++ '@' :: uri.host) ++ "/" ++ String.ofList path =
      remoteText (scpUri user uri.host path) := by
    apply String.toList_inj.mp
    simp [remoteText, scpUri, GenericUri.text, GenericUri.authority, GenericUri.hostText, behind]
  have accepted : ((String.ofList (user ++ '@' :: uri.host)).toList.contains '@' &&
      String.ofList path != "") = true := by
    have filledPath : String.ofList path ≠ "" := by
      intro empty
      have letters := congrArg String.toList empty
      rw [String.toList_ofList] at letters
      exact nonempty letters
    simp [filledPath]
  rw [normalizeGitRemote, scpText, trim_of_graphic (scpText_graphic sshRemote), ← scpText,
    parseGitRemote, if_neg filled, if_neg (by simp [noSeparator]),
    splitOnce_scpText userChars (isPlainChar_of_isName name), Option.filter_some, if_pos accepted]
  dsimp only
  rw [sshText, parsed]
  refine (gitRemoteIdentity_of_components sshRemote scheme host port urlPath).trans ?_
  rw [remotePort_scpUri, pathEq]
  rfl

/-! ## Slashes and suffixes -/

theorem stripBoth_replicate (path : List Char) (leading trailing : Nat) :
    stripBoth (· == '/')
        (String.ofList (List.replicate leading '/' ++ (path ++ List.replicate trailing '/'))) =
      stripBoth (· == '/') (String.ofList path) := by
  have slashes : ∀ count, ∀ letter ∈ List.replicate count '/', (letter == '/') = true :=
    fun count letter member => beq_iff_eq.mpr (List.eq_of_mem_replicate member)
  have noTrailing : ∀ letters : List Char,
      (letters ++ List.replicate trailing '/').rdropWhile (· == '/') =
        letters.rdropWhile (· == '/') := by
    intro letters
    rw [List.rdropWhile, List.rdropWhile, List.reverse_append, List.reverse_replicate,
      List.dropWhile_append_of_pos (slashes trailing)]
  simp only [stripBoth, String.toList_ofList]
  rw [List.dropWhile_append_of_pos (slashes leading), List.dropWhile_append]
  split
  · next allSlashes =>
      rw [List.isEmpty_iff.mp allSlashes, List.dropWhile_eq_nil_iff.mpr (slashes trailing)]
  · rw [noTrailing]

theorem stripGitSuffix_append (path : List Char) :
    stripGitSuffix (String.ofList (path ++ ['.', 'g', 'i', 't'])) = String.ofList path := by
  have length : (path ++ ['.', 'g', 'i', 't']).length - 4 = path.length := by simp
  rw [stripGitSuffix, String.toList_ofList, length, List.drop_left, List.take_left, if_pos (by decide)]

theorem stripGitSuffix_of_not_suffix {path : List Char}
    (notGit : ¬ ['.', 'g', 'i', 't'] <:+ path.map Char.toLower) :
    stripGitSuffix (String.ofList path) = String.ofList path := by
  rw [stripGitSuffix, String.toList_ofList]
  refine if_neg fun ends => notGit ?_
  rw [← ends]
  exact (List.drop_suffix _ path).map Char.toLower

/-- One `.git` behind a path that ends in neither a slash nor `.git` is cut off. -/
theorem stripGitSuffix_stripBoth_git {path : List Char} (filled : path ≠ [])
    (noSlash : path.getLast? ≠ some '/')
    (notGit : ¬ ['.', 'g', 'i', 't'] <:+ path.map Char.toLower) :
    stripGitSuffix (stripBoth (· == '/') (String.ofList (path ++ ['.', 'g', 'i', 't']))) =
      stripGitSuffix (stripBoth (· == '/') (String.ofList path)) := by
  obtain ⟨front, last, rfl⟩ := (List.eq_nil_or_concat' path).resolve_left filled
  have notSlash : (last == '/') = false := by
    rw [List.getLast?_concat] at noSlash
    exact beq_eq_false_iff_ne.mpr fun same => noSlash (congrArg some same)
  have stripped : ∃ rest, (front ++ [last]).dropWhile (· == '/') = rest ++ [last] := by
    rw [List.dropWhile_append]
    split
    · exact ⟨[], by simp [notSlash]⟩
    · exact ⟨front.dropWhile (· == '/'), rfl⟩
  obtain ⟨rest, restEq⟩ := stripped
  have suffix : (rest ++ [last]).map Char.toLower <:+ (front ++ [last]).map Char.toLower := by
    rw [← restEq]
    exact (List.dropWhile_suffix _).map Char.toLower
  have plain : stripBoth (· == '/') (String.ofList (front ++ [last])) =
      String.ofList (rest ++ [last]) := by
    rw [stripBoth, String.toList_ofList, restEq,
      List.rdropWhile_concat_neg _ _ _ (by simp [notSlash])]
  have dotted : stripBoth (· == '/')
      (String.ofList (front ++ [last] ++ ['.', 'g', 'i', 't'])) =
        String.ofList (rest ++ [last] ++ ['.', 'g', 'i', 't']) := by
    have filledRest : (rest ++ [last]).isEmpty = false := by simp
    have ended : rest ++ [last] ++ ['.', 'g', 'i', 't'] =
        (rest ++ [last] ++ ['.', 'g', 'i']) ++ ['t'] := by simp
    rw [stripBoth, String.toList_ofList, List.dropWhile_append, restEq, filledRest,
      if_neg (by decide), ended, List.rdropWhile_concat_neg _ _ _ (by decide)]
  rw [plain, dotted, stripGitSuffix_append,
    stripGitSuffix_of_not_suffix fun ends => notGit (ends.trans suffix)]

/-! ## Identities that do not change -/

/-- `normalize_context_identity` over a URL parser and a hash function. -/
def identityOf (parse : String → Option Url) (sha256Hex : String → String)
    (input : ContextIdentityInput) : Except String ContextIdentity :=
  letI := parsedIdentities parse sha256Hex
  normalizeContextIdentity input

/-- The texts are within the limit and have one identity as a remote, or the same
error. -/
def SameIdentity (parse : String → Option Url) (sha256Hex : String → String)
    (first second : String) : Prop :=
  ∀ input : ContextIdentityInput, asciiLowercase (trim input.scheme) = "git_remote" →
    first.utf8ByteSize ≤ maxContextIdentityValueLen →
    second.utf8ByteSize ≤ maxContextIdentityValueLen →
    identityOf parse sha256Hex { input with value := second } =
      identityOf parse sha256Hex { input with value := first }

theorem sameIdentity_of_normalize {sha256Hex : String → String} {first second : String}
    (same : normalizeGitRemote parse second = normalizeGitRemote parse first) :
    SameIdentity parse sha256Hex first second := by
  intro input isGit firstFits secondFits
  have limits : validateIdentityInputLimits { input with value := second } =
      validateIdentityInputLimits { input with value := first } := by
    rw [validateIdentityInputLimits, validateIdentityInputLimits, decide_eq_true secondFits,
      decide_eq_true firstFits]
  have normalized : (parsedIdentities parse sha256Hex).normalizeGitRemote second =
      (parsedIdentities parse sha256Hex).normalizeGitRemote first := same
  unfold identityOf normalizeContextIdentity
  dsimp only
  rw [limits, isGit]
  unfold canonicalIdentity
  rw [if_pos rfl, if_pos rfl, normalized]

/-- Remotes with one identity have the same result. -/
theorem sameIdentity_of_remotes {sha256Hex : String → String} {first second : GenericUri}
    (reads : ReadsComponents parse readHost) (firstRemote : IsRemote first)
    (secondRemote : IsRemote second)
    (same : remoteIdentity (readRemoteHost readHost second) (remotePort second) second.path =
      remoteIdentity (readRemoteHost readHost first) (remotePort first) first.path) :
    SameIdentity parse sha256Hex (remoteText first) (remoteText second) := by
  apply sameIdentity_of_normalize
  rw [normalizeGitRemote_remoteText reads firstRemote,
    normalizeGitRemote_remoteText reads secondRemote, same]

/-- Slashes around the path of a remote. -/
def slashed (uri : GenericUri) (leading trailing : Nat) : GenericUri :=
  { uri with
    path := List.replicate leading '/' ++ (uri.path ++ List.replicate trailing '/') }

/-- `.git` behind the path of a remote. -/
def gitSuffixed (uri : GenericUri) : GenericUri :=
  { uri with path := uri.path ++ ['.', 'g', 'i', 't'] }

/-- Equal bytes are hashed only for equal schemes and canonical texts.  With standard
URLs, the identity of a remote does not change with user information, query and
fragment, with slashes around the path, with one `.git` behind a path that ends in
neither a slash nor `.git`, and in the scp form, which has no port, no address and no
`://`, and does not decode the host. -/
theorem context_identity_canonical (parse : String → Option Url) (sha256Hex : String → String) :
    (∀ left right leftIdentity rightIdentity,
      identityOf parse sha256Hex left = .ok leftIdentity →
      identityOf parse sha256Hex right = .ok rightIdentity →
      ∃ leftText rightText,
        leftIdentity.fingerprint = sha256Hex (hashedText leftIdentity.scheme leftText) ∧
        rightIdentity.fingerprint = sha256Hex (hashedText rightIdentity.scheme rightText) ∧
        ((hashedText leftIdentity.scheme leftText).toUTF8 =
            (hashedText rightIdentity.scheme rightText).toUTF8 →
          leftIdentity.scheme = rightIdentity.scheme ∧ leftText = rightText ∧
          (leftIdentity.scheme = "namespaced_id" →
            left.identityNamespace.map trim = right.identityNamespace.map trim ∧
              trim left.value = trim right.value))) ∧
    (StandardUrls parse → ∀ uri, IsRemote uri →
      (∀ userInfo query fragment,
        IsRemote { uri with userInfo := userInfo, query := query, fragment := fragment } →
        SameIdentity parse sha256Hex (remoteText uri)
          (remoteText { uri with userInfo := userInfo, query := query, fragment := fragment })) ∧
      (∀ leading trailing, IsRemote (slashed uri leading trailing) →
        SameIdentity parse sha256Hex (remoteText uri) (remoteText (slashed uri leading trailing))) ∧
      (uri.path ≠ [] → uri.path.getLast? ≠ some '/' →
        ¬ ['.', 'g', 'i', 't'] <:+ uri.path.map Char.toLower → IsRemote (gitSuffixed uri) →
        SameIdentity parse sha256Hex (remoteText uri) (remoteText (gitSuffixed uri))) ∧
      ∀ user path, uri.path = '/' :: path → path ≠ [] → remotePort uri = none →
        isName uri.host = true →
        (isSpecialScheme (remoteScheme uri) = true → isDomain uri.host = true) →
        (∀ letter ∈ user, isPlainChar letter = true) →
        hasSchemeSeparator (scpText user uri.host path) = false →
        SameIdentity parse sha256Hex (remoteText uri) (scpText user uri.host path)) := by
  constructor
  · intro left right leftIdentity rightIdentity leftAccepted rightAccepted
    let _ := parsedIdentities parse sha256Hex
    obtain ⟨leftText, leftHashed, leftPrint⟩ := of_normalizeContextIdentity leftAccepted
    obtain ⟨rightText, rightHashed, rightPrint⟩ := of_normalizeContextIdentity rightAccepted
    refine ⟨leftText, rightText, leftPrint, rightPrint, fun same => ?_⟩
    obtain ⟨hashed, values⟩ := hashed_separates leftHashed rightHashed same
    obtain ⟨schemes, texts⟩ := Prod.mk.inj hashed
    exact ⟨schemes, texts, values⟩
  · rintro ⟨readHost, reads⟩ uri remote
    refine ⟨fun userInfo query fragment other => ?_, fun leading trailing other => ?_,
      fun filled noSlash notGit other => ?_,
      fun user path pathEq filled noPort name domain userChars free => ?_⟩
    · exact sameIdentity_of_remotes reads remote other rfl
    · apply sameIdentity_of_remotes reads remote other
      exact remoteIdentity_of_path
        (congrArg stripGitSuffix (stripBoth_replicate uri.path leading trailing))
    · apply sameIdentity_of_remotes reads remote other
      exact remoteIdentity_of_path (stripGitSuffix_stripBoth_git filled noSlash notGit)
    · apply sameIdentity_of_normalize
      rw [normalizeGitRemote_scpText reads remote pathEq filled userChars name free,
        normalizeGitRemote_remoteText reads remote, noPort]
      exact remoteIdentity_of_lowercase (reads.lowercase_host name domain).symm

/-! ## A parser with standard components -/

/-- Split a URL into its components as they are written. -/
def splitUrl (text : String) : Option Url :=
  (splitUri text.toList).map fun uri =>
    let userInfo := uri.userInfo.getD []
    { scheme := remoteScheme uri
      username := String.ofList (userInfo.takeWhile (· != ':'))
      password := (splitOnce ':' (String.ofList userInfo)).map Prod.snd
      host := some (String.ofList uri.host)
      port := remotePort uri
      path := if uri.path = [] ∧ (defaultPort (remoteScheme uri)).isSome then "/"
        else String.ofList uri.path
      query := uri.query.map String.ofList
      fragment := uri.fragment.map String.ofList
      text := text }

theorem readsComponents_splitUrl : ReadsComponents splitUrl fun _ host => some host where
  refused _ _ absent := by cases absent
  components uri host remote hostEq := by
    have components := GenericUri.splitUri_text remote.wellFormed
    rw [← String.toList_ofList (l := uri.text)] at components
    refine ⟨_, (congrArg (Option.map _) components).trans rfl, rfl, hostEq, rfl, ?_⟩
    dsimp only
    split
    · next empty => exact Or.inr ⟨empty.1, rfl⟩
    · exact Or.inl rfl
  domains _ _ := rfl
  names _ _ := rfl

theorem standardUrls_splitUrl : StandardUrls splitUrl :=
  ⟨_, readsComponents_splitUrl⟩

/-- A repository on a host. -/
def exampleRemote (path : String) : GenericUri :=
  ⟨"https".toList, none, "example.com".toList, none, path.toList, none, none⟩

/-- `https://example.com/Org/Repo`. -/
def plainRemote : GenericUri :=
  exampleRemote "/Org/Repo"

/-- `https://example.com/Org/Repo.git`. -/
def suffixedRemote : GenericUri :=
  exampleRemote "/Org/Repo.git"

theorem isRemote_plainRemote : IsRemote plainRemote :=
  ⟨GenericUri.wellFormed_of_isWellFormed (by decide +kernel), by decide +kernel⟩

/-- The scp form of the remote has its identity. -/
theorem context_identity_canonical_plain :
    SameIdentity splitUrl id (remoteText plainRemote)
      (scpText "git".toList "example.com".toList "Org/Repo".toList) := by
  obtain ⟨-, -, -, scp⟩ := (context_identity_canonical splitUrl id).2
    standardUrls_splitUrl plainRemote isRemote_plainRemote
  exact scp "git".toList "Org/Repo".toList rfl (by decide +kernel) (by decide +kernel)
    (by decide +kernel) (fun _ => by decide +kernel) (List.all_eq_true.mp (by decide +kernel))
    (by decide +kernel)

theorem isRemote_suffixedRemote : IsRemote suffixedRemote :=
  ⟨GenericUri.wellFormed_of_isWellFormed (by decide +kernel), by decide +kernel⟩

theorem isRemote_gitSuffixed_suffixedRemote : IsRemote (gitSuffixed suffixedRemote) :=
  ⟨GenericUri.wellFormed_of_isWellFormed (by decide +kernel), by decide +kernel⟩

/-- The fingerprint of a remote without a namespace. -/
theorem identityOf_remote {sha256Hex : String → String} {value canonical label : String}
    (fits : value.utf8ByteSize ≤ maxContextIdentityValueLen)
    (normal : normalizeGitRemote parse value = .ok (canonical, label)) :
    (identityOf parse sha256Hex ⟨"git_remote", value, none⟩).map ContextIdentity.fingerprint =
      .ok (sha256Hex (hashedText "git_remote" canonical)) := by
  have normalized : (parsedIdentities parse sha256Hex).normalizeGitRemote value =
      .ok (canonical, label) := normal
  have limits : validateIdentityInputLimits ⟨"git_remote", value, none⟩ = .ok () := by
    rw [validateIdentityInputLimits, decide_eq_true fits]
    rfl
  have scheme : asciiLowercase (trim "git_remote") = "git_remote" := by decide +kernel
  unfold identityOf normalizeContextIdentity
  dsimp only
  rw [limits, scheme]
  unfold canonicalIdentity
  rw [if_pos rfl, normalized]
  rfl

/-- A second `.git` stays in the identity. -/
theorem git_suffix_changes_identity :
    ¬ ∀ (parse : String → Option Url) (sha256Hex : String → String), StandardUrls parse →
      ∀ uri, IsRemote uri → IsRemote (gitSuffixed uri) →
        SameIdentity parse sha256Hex (remoteText uri) (remoteText (gitSuffixed uri)) := by
  intro always
  have same := always splitUrl id standardUrls_splitUrl suffixedRemote isRemote_suffixedRemote
    isRemote_gitSuffixed_suffixedRemote ⟨"git_remote", "", none⟩ (by decide +kernel)
    (by decide +kernel) (by decide +kernel)
  have first : normalizeGitRemote splitUrl (remoteText suffixedRemote) =
      .ok ("example.com/Org/Repo", "example.com/…#") := by
    rw [normalizeGitRemote_remoteText readsComponents_splitUrl isRemote_suffixedRemote]
    decide
  have second : normalizeGitRemote splitUrl (remoteText (gitSuffixed suffixedRemote)) =
      .ok ("example.com/Org/Repo.git", "example.com/…#") := by
    rw [normalizeGitRemote_remoteText readsComponents_splitUrl isRemote_gitSuffixed_suffixedRemote]
    decide
  have prints := congrArg (Except.map ContextIdentity.fingerprint) same
  rw [identityOf_remote (by decide +kernel) second,
    identityOf_remote (by decide +kernel) first] at prints
  exact absurd (Except.ok.inj prints) (by decide +kernel)

end LocalHold
