import Mathlib

/-!
# Generic URIs

A URI with an authority is written as its components behind their separators, and
no component contains a separator of a later one.  The components of a well-formed
URI can therefore be read back from its text.
-/

namespace Coding

universe u

/-! ## Reading up to a separator -/

section Separators

variable {β : Type u} {word rest : List β} {inside : β → Bool}

/-- The first letters of a text up to where a word ends. -/
theorem takeWhile_word (free : ∀ letter ∈ word, inside letter = true)
    (ends : ∀ letter ∈ rest.head?, inside letter = false) :
    (word ++ rest).takeWhile inside = word := by
  rw [List.takeWhile_append_of_pos free]
  cases rest with
  | nil => simp
  | cons letter rest => simp [ends letter rfl]

/-- What follows the word. -/
theorem dropWhile_word (free : ∀ letter ∈ word, inside letter = true)
    (ends : ∀ letter ∈ rest.head?, inside letter = false) :
    (word ++ rest).dropWhile inside = rest := by
  rw [List.dropWhile_append_of_pos free]
  cases rest with
  | nil => rfl
  | cons letter rest => simp [ends letter rfl]

end Separators

/-- A component behind its separator, when there is one. -/
def behind (separator : Char) : Option (List Char) → List Char
  | none => []
  | some component => separator :: component

/-! ## Letters -/

/-- The unreserved letters, the sub-delimiters and the percent sign. -/
def isPlainChar (letter : Char) : Bool :=
  letter.isAlphanum || "-._~!$&'()*+,;=%".toList.contains letter

def isUserInfoChar (letter : Char) : Bool :=
  isPlainChar letter || letter == ':'

def isPathChar (letter : Char) : Bool :=
  isPlainChar letter || letter == ':' || letter == '@' || letter == '/'

def isQueryChar (letter : Char) : Bool :=
  isPathChar letter || letter == '?'

def isSchemeChar (letter : Char) : Bool :=
  letter.isAlphanum || letter == '+' || letter == '-' || letter == '.'

/-- The letters of a host. -/
def isHostChar (letter : Char) : Bool :=
  isUserInfoChar letter || letter == '[' || letter == ']'

/-- A registered name. -/
def isName (host : List Char) : Bool :=
  !host.isEmpty && host.all isPlainChar

/-- An address in brackets. -/
def isAddress : List Char → Bool
  | '[' :: inner => inner.getLast? == some ']' && inner.dropLast.all isUserInfoChar
  | _ => false

def isDomainChar (letter : Char) : Bool :=
  letter.isAlphanum || letter == '-' || letter == '.' || letter == '_'

/-- A label of a domain that is not in Punycode. -/
def isLabel (label : List Char) : Bool :=
  !label.isEmpty && (label.take 4).map Char.toLower != ['x', 'n', '-', '-']

/-- A domain of plain labels, the last of which begins with a letter: no address and
nothing encoded. -/
def isDomain (host : List Char) : Bool :=
  host.all isDomainChar && (host.splitOn '.').all isLabel &&
    (host.splitOn '.').getLast?.all fun label => label.head?.all Char.isAlpha

/-- A segment that a parser resolves. -/
def isDotSegment (segment : List Char) : Bool :=
  [".", "%2e", "..", ".%2e", "%2e.", "%2e%2e"].contains
    (String.ofList (segment.map Char.toLower))

/-! ## Components -/

/-- The components of a URI with an authority. -/
structure GenericUri where
  scheme : List Char
  userInfo : Option (List Char)
  host : List Char
  port : Option Nat
  path : List Char
  query : Option (List Char)
  fragment : Option (List Char)

namespace GenericUri

/-- The host and the port. -/
def hostText (uri : GenericUri) : List Char :=
  uri.host ++ behind ':' (uri.port.map (Nat.toDigits 10))

/-- User information, host and port. -/
def authority (uri : GenericUri) : List Char :=
  match uri.userInfo with
  | none => uri.hostText
  | some info => info ++ '@' :: uri.hostText

/-- The URI as text. -/
def text (uri : GenericUri) : List Char :=
  uri.scheme ++ ':' :: '/' :: '/' ::
    (uri.authority ++ (uri.path ++ (behind '?' uri.query ++ behind '#' uri.fragment)))

/-- Components with the letters of their kind.  The host is a name or an address in
brackets, and the path has no segment that a parser resolves. -/
structure WellFormed (uri : GenericUri) : Prop where
  schemeStart : ∀ letter ∈ uri.scheme.head?, letter.isAlpha = true
  schemeNonempty : uri.scheme ≠ []
  schemeChars : ∀ letter ∈ uri.scheme, isSchemeChar letter = true
  userInfoChars : ∀ info ∈ uri.userInfo, ∀ letter ∈ info, isUserInfoChar letter = true
  hostKind : isName uri.host = true ∨ isAddress uri.host = true
  portBound : ∀ port ∈ uri.port, port < 2 ^ 16
  pathStart : ∀ letter ∈ uri.path.head?, letter = '/'
  pathChars : ∀ letter ∈ uri.path, isPathChar letter = true
  pathSegments : ∀ segment ∈ uri.path.splitOn '/', isDotSegment segment = false
  queryChars : ∀ query ∈ uri.query, ∀ letter ∈ query, isQueryChar letter = true
  fragmentChars : ∀ fragment ∈ uri.fragment, ∀ letter ∈ fragment, isQueryChar letter = true

/-- The same rules as a check. -/
def isWellFormed (uri : GenericUri) : Bool :=
  uri.scheme.head?.all Char.isAlpha && !uri.scheme.isEmpty && uri.scheme.all isSchemeChar &&
    (uri.userInfo.all fun info => info.all isUserInfoChar) &&
    (isName uri.host || isAddress uri.host) && (uri.port.all fun port => decide (port < 2 ^ 16)) &&
    (uri.path.head?.all fun letter => letter == '/') && uri.path.all isPathChar &&
    ((uri.path.splitOn '/').all fun segment => !isDotSegment segment) &&
    (uri.query.all fun query => query.all isQueryChar) &&
    uri.fragment.all fun fragment => fragment.all isQueryChar

theorem wellFormed_of_isWellFormed {uri : GenericUri} (checked : uri.isWellFormed = true) :
    uri.WellFormed := by
  simp only [isWellFormed, Bool.and_eq_true, Option.all_eq_true, List.all_eq_true,
    Bool.not_eq_true', List.isEmpty_eq_false_iff, decide_eq_true_eq, beq_iff_eq,
    Bool.or_eq_true] at checked
  obtain ⟨⟨⟨⟨⟨⟨⟨⟨⟨⟨schemeStart, schemeNonempty⟩, schemeChars⟩, userInfoChars⟩, hostKind⟩,
    portBound⟩, pathStart⟩, pathChars⟩, pathSegments⟩, queryChars⟩, fragmentChars⟩ := checked
  exact ⟨schemeStart, schemeNonempty, schemeChars, userInfoChars, hostKind, portBound, pathStart,
    pathChars, pathSegments, queryChars, fragmentChars⟩

end GenericUri

/-! ## Reading -/

/-- The letters of an authority. -/
def inAuthority (letter : Char) : Bool :=
  letter != '/' && letter != '?' && letter != '#'

/-- The letters before the query. -/
def beforeQuery (letter : Char) : Bool :=
  letter != '?' && letter != '#'

/-- The port behind a host. -/
def splitPort : List Char → Option Nat
  | [] => none
  | _ :: digits => some (Nat.ofDigitChars 10 digits 0)

/-- The host and the port of a text; an address ends with its bracket. -/
def splitHost (text : List Char) : List Char × Option Nat :=
  if text.head? = some '[' then
    (text.takeWhile (· != ']') ++ [']'], splitPort (text.dropWhile (· != ']')).tail)
  else
    (text.takeWhile (· != ':'), splitPort (text.dropWhile (· != ':')))

/-- User information, host and port of an authority. -/
def splitAuthority (authority : List Char) : Option (List Char) × List Char × Option Nat :=
  match authority.dropWhile (· != '@') with
  | [] => (none, splitHost authority)
  | _ :: hostText => (some (authority.takeWhile (· != '@')), splitHost hostText)

/-- The query behind a path. -/
def splitQuery : List Char → Option (List Char)
  | [] => none
  | first :: query => if first = '?' then some (query.takeWhile (· != '#')) else none

/-- The fragment behind a path and a query. -/
def splitFragment (text : List Char) : Option (List Char) :=
  match text.dropWhile (· != '#') with
  | [] => none
  | _ :: fragment => some fragment

/-- The components of a text. -/
def splitUri (text : List Char) : Option GenericUri :=
  let marked := text.dropWhile (· != ':')
  if marked.take 3 = [':', '/', '/'] then
    let rest := marked.drop 3
    let authority := splitAuthority (rest.takeWhile inAuthority)
    let tail := rest.dropWhile inAuthority
    let suffix := tail.dropWhile beforeQuery
    some {
      scheme := text.takeWhile (· != ':')
      userInfo := authority.1
      host := authority.2.1
      port := authority.2.2
      path := tail.takeWhile beforeQuery
      query := splitQuery suffix
      fragment := splitFragment suffix }
  else
    none

/-! ## Components read back -/

/-- A letter of a kind is none outside it. -/
theorem ne_of_kind {kind : Char → Bool} {letter other : Char} (isOf : kind letter = true)
    (notOf : kind other = false) : letter ≠ other := by
  rintro rfl
  rw [isOf] at notOf
  cases notOf

theorem bne_of_kind {kind : Char → Bool} {other : Char} (notOf : kind other = false)
    {letter : Char} (isOf : kind letter = true) : (letter != other) = true :=
  bne_iff_ne.mpr (ne_of_kind isOf notOf)

theorem isQueryChar_of_isPathChar {letter : Char} (isOf : isPathChar letter = true) :
    isQueryChar letter = true := by
  rw [isQueryChar, isOf, Bool.true_or]

/-- The visible ASCII letters. -/
def isGraphic (letter : Char) : Bool :=
  decide (33 ≤ letter.toNat) && decide (letter.toNat ≤ 126)

theorem isGraphic_of_isAlphanum {letter : Char} (isOf : letter.isAlphanum = true) :
    isGraphic letter = true := by
  simp only [Char.isAlphanum, Char.isAlpha, Char.isUpper, Char.isLower, Char.isDigit,
    Bool.or_eq_true, Bool.and_eq_true, decide_eq_true_eq, ge_iff_le, UInt32.le_iff_toNat_le] at isOf
  have bounds : 48 ≤ letter.toNat ∧ letter.toNat ≤ 122 := by
    rw [Char.toNat]
    rcases isOf with (⟨lower, upper⟩ | ⟨lower, upper⟩) | ⟨lower, upper⟩
    · exact ⟨le_trans (by decide) lower, le_trans upper (by decide)⟩
    · exact ⟨le_trans (by decide) lower, le_trans upper (by decide)⟩
    · exact ⟨lower, le_trans upper (by decide)⟩
  rw [isGraphic, Bool.and_eq_true, decide_eq_true_eq, decide_eq_true_eq]
  omega

theorem isGraphic_of_isQueryChar {letter : Char} (isOf : isQueryChar letter = true) :
    isGraphic letter = true := by
  simp only [isQueryChar, isPathChar, isPlainChar, Bool.or_eq_true, beq_iff_eq,
    List.contains_iff_mem] at isOf
  rcases isOf with ((((alphanumeric | listed) | rfl) | rfl) | rfl) | rfl
  · exact isGraphic_of_isAlphanum alphanumeric
  · have all : ∀ other ∈ "-._~!$&'()*+,;=%".toList, isGraphic other = true :=
      List.all_eq_true.mp (by decide +kernel)
    exact all letter listed
  all_goals decide

theorem isGraphic_of_isSchemeChar {letter : Char} (isOf : isSchemeChar letter = true) :
    isGraphic letter = true := by
  simp only [isSchemeChar, Bool.or_eq_true, beq_iff_eq] at isOf
  rcases isOf with ((alphanumeric | rfl) | rfl) | rfl
  · exact isGraphic_of_isAlphanum alphanumeric
  all_goals decide

theorem isQueryChar_of_isUserInfoChar {letter : Char} (isOf : isUserInfoChar letter = true) :
    isQueryChar letter = true := by
  rw [isUserInfoChar, Bool.or_eq_true] at isOf
  rcases isOf with plain | colon
  · rw [isQueryChar, isPathChar, plain, Bool.true_or, Bool.true_or, Bool.true_or, Bool.true_or]
  · rw [isQueryChar, isPathChar, colon, Bool.or_true, Bool.true_or, Bool.true_or, Bool.true_or]

theorem isGraphic_of_isHostChar {letter : Char} (isOf : isHostChar letter = true) :
    isGraphic letter = true := by
  simp only [isHostChar, Bool.or_eq_true, beq_iff_eq] at isOf
  rcases isOf with (inner | rfl) | rfl
  · exact isGraphic_of_isQueryChar (isQueryChar_of_isUserInfoChar inner)
  all_goals decide

/-! ## Hosts -/

/-- The letters of a name. -/
theorem isPlainChar_of_isName {host : List Char} (name : isName host = true) :
    ∀ letter ∈ host, isPlainChar letter = true := by
  rw [isName, Bool.and_eq_true] at name
  exact List.all_eq_true.mp name.2

/-- What stands between the brackets of an address. -/
theorem exists_of_isAddress {host : List Char} (address : isAddress host = true) :
    ∃ inner, host = '[' :: (inner ++ [']']) ∧ ∀ letter ∈ inner, isUserInfoChar letter = true := by
  unfold isAddress at address
  split at address
  · next inner =>
      rw [Bool.and_eq_true, beq_iff_eq] at address
      obtain ⟨front, ends⟩ := List.getLast?_eq_some_iff.mp address.1
      refine ⟨front, by rw [ends], ?_⟩
      have letters := List.all_eq_true.mp address.2
      rwa [ends, List.dropLast_concat] at letters
  · cases address

theorem behind_graphic {separator : Char} {component : Option (List Char)}
    (separatorGraphic : isGraphic separator = true)
    (graphic : ∀ word ∈ component, ∀ letter ∈ word, isGraphic letter = true) :
    ∀ letter ∈ behind separator component, isGraphic letter = true := by
  cases component with
  | none => exact List.forall_mem_nil _
  | some word => exact List.forall_mem_cons.mpr ⟨separatorGraphic, graphic word rfl⟩

namespace GenericUri

variable {uri : GenericUri}

theorem WellFormed.hostChars (wellFormed : uri.WellFormed) :
    ∀ letter ∈ uri.host, isHostChar letter = true := by
  intro letter member
  rcases wellFormed.hostKind with name | address
  · rw [isHostChar, isUserInfoChar, isPlainChar_of_isName name letter member, Bool.true_or,
      Bool.true_or, Bool.true_or]
  · obtain ⟨inner, hostEq, letters⟩ := exists_of_isAddress address
    rw [hostEq, List.mem_cons, List.mem_append, List.mem_singleton] at member
    rcases member with rfl | inInner | rfl
    · rfl
    · rw [isHostChar, letters letter inInner, Bool.true_or, Bool.true_or]
    · rfl

/-- The letters of a host with its port: those of the host, a colon and digits. -/
theorem WellFormed.hostText_chars (wellFormed : uri.WellFormed) :
    ∀ letter ∈ uri.hostText, isHostChar letter = true := by
  intro letter member
  rcases List.mem_append.mp member with inHost | inPort
  · exact wellFormed.hostChars letter inHost
  · cases portEq : uri.port with
    | none =>
        rw [portEq] at inPort
        cases inPort
    | some port =>
        rw [portEq] at inPort
        rcases List.mem_cons.mp inPort with rfl | digit
        · decide
        · have isDigit := Nat.isDigit_of_mem_toDigits (by decide) (by decide) digit
          simp [isHostChar, isUserInfoChar, isPlainChar, Char.isAlphanum, isDigit]

theorem WellFormed.hostText_ne (wellFormed : uri.WellFormed) {other : Char}
    (notHost : isHostChar other = false) : ∀ letter ∈ uri.hostText, (letter != other) = true :=
  fun letter member => bne_of_kind notHost (wellFormed.hostText_chars letter member)

theorem WellFormed.authority_ne (wellFormed : uri.WellFormed) {other : Char}
    (notHost : isHostChar other = false) (notAt : '@' ≠ other) :
    ∀ letter ∈ uri.authority, (letter != other) = true := by
  have notInfo : isUserInfoChar other = false := by
    rw [isHostChar, Bool.or_eq_false_iff, Bool.or_eq_false_iff] at notHost
    exact notHost.1.1
  intro letter member
  rw [authority] at member
  split at member
  · exact wellFormed.hostText_ne notHost letter member
  · next info infoEq =>
      rcases List.mem_append.mp member with inInfo | behindInfo
      · exact bne_of_kind notInfo (wellFormed.userInfoChars info infoEq letter inInfo)
      · rcases List.mem_cons.mp behindInfo with rfl | inHost
        · exact bne_iff_ne.mpr notAt
        · exact wellFormed.hostText_ne notHost letter inHost

theorem WellFormed.inAuthority_authority (wellFormed : uri.WellFormed) :
    ∀ letter ∈ uri.authority, inAuthority letter = true := by
  intro letter member
  rw [inAuthority, wellFormed.authority_ne (by decide) (by decide) letter member,
    wellFormed.authority_ne (by decide) (by decide) letter member,
    wellFormed.authority_ne (by decide) (by decide) letter member]
  rfl

theorem behind_ends (separator : Char) (component : Option (List Char)) :
    ∀ letter ∈ (behind separator component).head?, (letter != separator) = false := by
  cases component with
  | none => exact nofun
  | some component =>
      rintro letter ⟨⟩
      exact bne_self_eq_false separator

theorem splitPort_behind (port : Option Nat) :
    splitPort (behind ':' (port.map (Nat.toDigits 10))) = port := by
  cases port with
  | none => rfl
  | some port =>
      rw [Option.map_some, behind, splitPort, Nat.ofDigitChars_ten_toDigits]

theorem splitHost_hostText (wellFormed : uri.WellFormed) :
    splitHost uri.hostText = (uri.host, uri.port) := by
  rcases wellFormed.hostKind with name | address
  · have free : ∀ letter ∈ uri.host, (letter != ':') = true := fun letter member =>
      bne_of_kind (by decide) (isPlainChar_of_isName name letter member)
    have ends := behind_ends ':' (uri.port.map (Nat.toDigits 10))
    have noBracket : uri.hostText.head? ≠ some '[' := by
      intro bracket
      rw [isName, Bool.and_eq_true, Bool.not_eq_true', List.isEmpty_eq_false_iff] at name
      rw [hostText, List.head?_append_of_ne_nil _ name.1] at bracket
      exact absurd (List.all_eq_true.mp name.2 '[' (List.mem_of_head? bracket)) (by decide)
    rw [splitHost, if_neg noBracket, hostText, takeWhile_word free ends, dropWhile_word free ends,
      splitPort_behind]
  · obtain ⟨inner, hostEq, letters⟩ := exists_of_isAddress address
    have free : ∀ letter ∈ '[' :: inner, (letter != ']') = true :=
      List.forall_mem_cons.mpr ⟨rfl, fun letter member =>
        bne_of_kind (by decide) (letters letter member)⟩
    have ends : ∀ letter ∈ (']' :: behind ':' (uri.port.map (Nat.toDigits 10))).head?,
        (letter != ']') = false := by
      rintro letter ⟨⟩
      rfl
    have split : uri.hostText =
        ('[' :: inner) ++ ']' :: behind ':' (uri.port.map (Nat.toDigits 10)) := by
      rw [hostText, hostEq]
      simp
    rw [splitHost, split]
    refine (if_pos rfl).trans ?_
    rw [takeWhile_word free ends, dropWhile_word free ends, List.tail_cons, splitPort_behind,
      hostEq]
    rfl

theorem splitAuthority_authority (wellFormed : uri.WellFormed) :
    splitAuthority uri.authority = (uri.userInfo, uri.host, uri.port) := by
  have hosts := splitHost_hostText wellFormed
  cases infoEq : uri.userInfo with
  | none =>
      have noAt : uri.hostText.dropWhile (· != '@') = [] :=
        List.dropWhile_eq_nil_iff.2 (wellFormed.hostText_ne (by decide))
      rw [authority, infoEq]
      dsimp only
      rw [splitAuthority, noAt, hosts]
  | some info =>
      have free : ∀ letter ∈ info, (letter != '@') = true := fun letter member =>
        bne_of_kind (by decide) (wellFormed.userInfoChars info infoEq letter member)
      have ends : ∀ letter ∈ ('@' :: uri.hostText).head?, (letter != '@') = false := by
        rintro letter ⟨⟩
        rfl
      rw [authority, infoEq]
      dsimp only
      rw [splitAuthority, takeWhile_word free ends, dropWhile_word free ends]
      dsimp only
      rw [hosts]

theorem splitQuery_suffix (wellFormed : uri.WellFormed) :
    splitQuery (behind '?' uri.query ++ behind '#' uri.fragment) = uri.query := by
  cases queryEq : uri.query with
  | none =>
      cases uri.fragment with
      | none => rfl
      | some fragment => rfl
  | some query =>
      have free : ∀ letter ∈ query, (letter != '#') = true := fun letter member =>
        bne_of_kind (by decide) (wellFormed.queryChars query queryEq letter member)
      rw [behind, List.cons_append, splitQuery, if_pos rfl,
        takeWhile_word free (behind_ends '#' uri.fragment)]

theorem splitFragment_suffix (wellFormed : uri.WellFormed) :
    splitFragment (behind '?' uri.query ++ behind '#' uri.fragment) = uri.fragment := by
  have free : ∀ letter ∈ behind '?' uri.query, (letter != '#') = true := by
    cases queryEq : uri.query with
    | none => exact List.forall_mem_nil _
    | some query =>
        exact List.forall_mem_cons.mpr ⟨rfl, fun letter member =>
          bne_of_kind (by decide) (wellFormed.queryChars query queryEq letter member)⟩
  rw [splitFragment, dropWhile_word free (behind_ends '#' uri.fragment)]
  cases uri.fragment with
  | none => rfl
  | some fragment => rfl

theorem WellFormed.authority_graphic (wellFormed : uri.WellFormed) :
    ∀ letter ∈ uri.authority, isGraphic letter = true := by
  have hosts : ∀ letter ∈ uri.hostText, isGraphic letter = true := fun letter member =>
    isGraphic_of_isHostChar (wellFormed.hostText_chars letter member)
  intro letter member
  rw [authority] at member
  split at member
  · exact hosts letter member
  · next info infoEq =>
      rcases List.mem_append.mp member with inInfo | behindInfo
      · exact isGraphic_of_isQueryChar
          (isQueryChar_of_isUserInfoChar (wellFormed.userInfoChars info infoEq letter inInfo))
      · rcases List.mem_cons.mp behindInfo with rfl | inHost
        · decide
        · exact hosts letter inHost

/-- The text of a well-formed URI is visible. -/
theorem WellFormed.text_graphic (wellFormed : uri.WellFormed) :
    ∀ letter ∈ uri.text, isGraphic letter = true := by
  have marks : ∀ letter ∈ [':', '/', '/'], isGraphic letter = true :=
    List.all_eq_true.mp (by decide +kernel)
  have split : uri.text = uri.scheme ++ ([':', '/', '/'] ++
      (uri.authority ++ (uri.path ++ (behind '?' uri.query ++ behind '#' uri.fragment)))) := rfl
  rw [split]
  simp only [List.forall_mem_append]
  exact ⟨fun letter member => isGraphic_of_isSchemeChar (wellFormed.schemeChars letter member),
    marks, wellFormed.authority_graphic,
    fun letter member => isGraphic_of_isQueryChar
      (isQueryChar_of_isPathChar (wellFormed.pathChars letter member)),
    behind_graphic (by decide) fun query queryEq letter member =>
      isGraphic_of_isQueryChar (wellFormed.queryChars query queryEq letter member),
    behind_graphic (by decide) fun fragment fragmentEq letter member =>
      isGraphic_of_isQueryChar (wellFormed.fragmentChars fragment fragmentEq letter member)⟩

/-- The components of a well-formed URI are those of its text. -/
theorem splitUri_text (wellFormed : uri.WellFormed) : splitUri uri.text = some uri := by
  have schemeFree : ∀ letter ∈ uri.scheme, (letter != ':') = true := fun letter member =>
    bne_of_kind (by decide) (wellFormed.schemeChars letter member)
  have colon : ∀ tail, ∀ letter ∈ (':' :: tail : List Char).head?, (letter != ':') = false := by
    rintro tail letter ⟨⟩
    rfl
  have pathFree : ∀ letter ∈ uri.path, beforeQuery letter = true := by
    intro letter member
    rw [beforeQuery, bne_of_kind (by decide) (wellFormed.pathChars letter member),
      bne_of_kind (by decide) (wellFormed.pathChars letter member)]
    rfl
  have suffixEnds : ∀ letter ∈ (behind '?' uri.query ++ behind '#' uri.fragment).head?,
      letter = '?' ∨ letter = '#' := by
    cases uri.query with
    | some query =>
        rintro letter ⟨⟩
        exact Or.inl rfl
    | none =>
        cases uri.fragment with
        | some fragment =>
            rintro letter ⟨⟩
            exact Or.inr rfl
        | none => exact nofun
  have pathEnds : ∀ letter ∈ (behind '?' uri.query ++ behind '#' uri.fragment).head?,
      beforeQuery letter = false := by
    intro letter member
    rcases suffixEnds letter member with rfl | rfl
    · rfl
    · rfl
  have authorityEnds : ∀ letter ∈ (uri.path ++
      (behind '?' uri.query ++ behind '#' uri.fragment)).head?, inAuthority letter = false := by
    cases pathEq : uri.path with
    | nil =>
        intro letter member
        rcases suffixEnds letter member with rfl | rfl
        · rfl
        · rfl
    | cons first path =>
        rintro letter ⟨⟩
        have slash := wellFormed.pathStart first (by rw [pathEq]; rfl)
        rw [slash]
        rfl
  rw [splitUri, text, takeWhile_word schemeFree (colon _), dropWhile_word schemeFree (colon _)]
  refine (if_pos rfl).trans ?_
  have dropped : ∀ rest : List Char, (':' :: '/' :: '/' :: rest).drop 3 = rest := fun _ => rfl
  dsimp only
  rw [dropped, takeWhile_word wellFormed.inAuthority_authority authorityEnds,
    dropWhile_word wellFormed.inAuthority_authority authorityEnds,
    takeWhile_word pathFree pathEnds, dropWhile_word pathFree pathEnds,
    splitAuthority_authority wellFormed, splitQuery_suffix wellFormed,
    splitFragment_suffix wellFormed]

end GenericUri

end Coding
