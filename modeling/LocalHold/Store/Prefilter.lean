import LocalHold.Store.WhereClause

/-!
# SQL prefilter and Rust predicate

Rows are selected by SQL first and tested again in Rust.  Both tests agree in
every dimension but the text search: `LIKE` folds ASCII letters only, while the
Rust predicate lowercases a content that is not ASCII.  The SQL step therefore
never keeps a row that Rust refuses, and it drops the rows in which only the
Unicode lowercase form of the content contains the text.
-/

namespace LocalHold

open Relational

/-! ## Lowercasing -/

/-- What is relied on of Unicode lowercasing: letters are mapped one by one
except for the capital sigma, ASCII letters as ASCII does, and a lowercase text
consists of letters that stay as they are. -/
structure UnicodeLowercase [Host] (lowerChar : Char → List Char) : Prop where
  ascii : ∀ letter : Char, letter.toNat < 128 → lowerChar letter = [letter.toLower]
  stable : ∀ text, ∀ letter ∈ (Host.toLowercase text).toList,
    lowerChar letter = [letter] ∧ letter ≠ 'Σ'
  pieces : ∀ before piece after : List Char, 'Σ' ∉ piece → ∃ left right,
    (Host.toLowercase (String.ofList (before ++ piece ++ after))).toList =
      left ++ piece.flatMap lowerChar ++ right

theorem toLower_of_not_ascii {letter : Char} (other : ¬ letter.toNat < 128) :
    letter.toLower = letter := by
  rw [Char.toLower, dif_neg]
  rintro ⟨_, atMost⟩
  have bound : letter.val.toNat ≤ 'Z'.val.toNat := UInt32.le_iff_toNat_le.mp atMost
  exact other (Nat.lt_of_le_of_lt bound (by decide))

theorem likeContains_iff {content text : String} :
    likeContains content text = true ↔
      (asciiLowercase text).toList <:+: (asciiLowercase content).toList := by
  simp only [likeContains, decide_eq_true_eq]

theorem containsCaseInsensitiveAscii_iff [Host] {content text : String} :
    containsCaseInsensitiveAscii content text = true ↔
      if content.toList.all fun letter => decide (letter.toNat < 128) then
        text.toList <:+: (asciiLowercase content).toList
      else text.toList <:+: (Host.toLowercase content).toList := by
  rw [containsCaseInsensitiveAscii]
  split
  · simp only [decide_eq_true_eq]
  · simp only [decide_eq_true_eq]

section Lowercase

variable [Host] {lowerChar : Char → List Char}

/-- A lowercase text has no capital ASCII letter. -/
theorem UnicodeLowercase.asciiLowercase_toLowercase (laws : UnicodeLowercase lowerChar)
    (text : String) : asciiLowercase (Host.toLowercase text) = Host.toLowercase text := by
  have same : (Host.toLowercase text).toList.map Char.toLower = (Host.toLowercase text).toList := by
    refine (List.map_congr_left fun letter letterMem => ?_).trans (List.map_id _)
    by_cases small : letter.toNat < 128
    · have fixed := (laws.stable text letter letterMem).1
      rw [laws.ascii letter small] at fixed
      exact (List.cons.inj fixed).1
    · exact toLower_of_not_ascii small
  rw [asciiLowercase, same, String.ofList_toList]

/-- Letters that ASCII folding takes to letters of a lowercase text are taken
there by lowercasing too. -/
theorem UnicodeLowercase.flatMap_lowerChar (laws : UnicodeLowercase lowerChar) {text : String}
    {piece : List Char} (within : ∀ letter ∈ piece.map Char.toLower,
      letter ∈ (Host.toLowercase text).toList) :
    'Σ' ∉ piece ∧ piece.flatMap lowerChar = piece.map Char.toLower := by
  induction piece with
  | nil => exact ⟨List.not_mem_nil, rfl⟩
  | cons letter piece inductionHypothesis =>
      obtain ⟨noSigma, mapped⟩ := inductionHypothesis fun other otherMem =>
        within other (List.mem_cons_of_mem _ otherMem)
      have lowered := within letter.toLower List.mem_cons_self
      obtain ⟨fixed, notSigma⟩ := laws.stable text _ lowered
      have letterEq : lowerChar letter = [letter.toLower] ∧ letter ≠ 'Σ' := by
        by_cases small : letter.toNat < 128
        · exact ⟨laws.ascii letter small, by rintro rfl; exact absurd small (by decide)⟩
        · rw [toLower_of_not_ascii small] at fixed notSigma ⊢
          exact ⟨fixed, notSigma⟩
      refine ⟨?_, ?_⟩
      · rintro (_ | ⟨_, sigmaMem⟩)
        · exact letterEq.2 rfl
        · exact noSigma sigmaMem
      · rw [List.flatMap_cons, letterEq.1, mapped]
        rfl

/-- What `LIKE` finds the Rust predicate finds. -/
theorem containsCaseInsensitiveAscii_of_likeContains (laws : UnicodeLowercase lowerChar)
    {content text : String} (found : likeContains content (Host.toLowercase text) = true) :
    containsCaseInsensitiveAscii content (Host.toLowercase text) = true := by
  rw [likeContains_iff, laws.asciiLowercase_toLowercase] at found
  rw [containsCaseInsensitiveAscii_iff]
  split
  · exact found
  · obtain ⟨before, after, split⟩ := found
    rw [asciiLowercase, String.toList_ofList, List.append_assoc, eq_comm,
      List.map_eq_append_iff] at split
    obtain ⟨skipped, rest, contentEq, _, split⟩ := split
    obtain ⟨piece, left, rfl, pieceEq, _⟩ := List.map_eq_append_iff.mp split
    have within : ∀ letter ∈ piece.map Char.toLower,
        letter ∈ (Host.toLowercase text).toList := by
      rw [pieceEq]
      exact fun _ letterMem => letterMem
    obtain ⟨noSigma, mapped⟩ := laws.flatMap_lowerChar within
    obtain ⟨front, back, lowered⟩ := laws.pieces skipped piece left noSigma
    rw [List.append_assoc, ← contentEq, String.ofList_toList, mapped, pieceEq] at lowered
    rw [lowered]
    exact ⟨front, back, rfl⟩

/-- On an ASCII content both searches agree. -/
theorem likeContains_of_ascii (laws : UnicodeLowercase lowerChar) {content text : String}
    (ascii : (content.toList.all fun letter => decide (letter.toNat < 128)) = true)
    (found : containsCaseInsensitiveAscii content (Host.toLowercase text) = true) :
    likeContains content (Host.toLowercase text) = true := by
  rw [containsCaseInsensitiveAscii_iff, if_pos ascii] at found
  rw [likeContains_iff, laws.asciiLowercase_toLowercase]
  exact found

end Lowercase

/-! ## Times -/

/-- The lower bound of the creation time. -/
def MemoryFilter.afterBound (filter : MemoryFilter) : Option Instant :=
  filter.timeRange.bind (·.after)

/-- The upper bound of the creation time. -/
def MemoryFilter.beforeBound (filter : MemoryFilter) : Option Instant :=
  filter.timeRange.bind (·.before)

/-- The stored timestamps of a memory that can be decoded: a text with another
year is refused when the row is read. -/
structure StoredMemory.Decodable (stored : StoredMemory) : Prop where
  created : FourDigitYear stored.columns.createdAt
  expires : ∀ expiry ∈ stored.columns.expiresAt, FourDigitYear expiry

/-- The dimensions that are tested alike on the columns and on the memory. -/
def plainDimensions (filter : MemoryFilter) (stored : StoredMemory) : Bool :=
  matchesTags filter stored.columns.tags && matchesProvenance filter stored.columns.provenance &&
    matchesEntities filter stored.entities &&
    (filter.hasEmbedding.all fun wanted => stored.columns.hasEmbedding == wanted) &&
    (filter.memoryType.all fun wanted => stored.columns.memoryType == wanted) &&
    (filter.includeSuperseded.getD false || stored.columns.supersededBy.isNone)

/-- The verdicts of a test on the dimensions of a filter. -/
structure Verdicts where
  plain : Bool
  after : Bool
  before : Bool
  live : Bool
  text : Bool

/-- A test accepts what every dimension accepts. -/
def Verdicts.accepts (verdicts : Verdicts) : Bool :=
  verdicts.plain && verdicts.after && verdicts.before && verdicts.live && verdicts.text

section Dimensions

variable [Host] (filter : MemoryFilter) (now : Instant) (stored : StoredMemory)

/-- The verdicts of the Rust predicate on a memory. -/
def memoryVerdicts : Verdicts where
  plain := plainDimensions filter stored
  after := filter.afterBound.all fun after => decide (after ≤ stored.columns.createdAt)
  before := filter.beforeBound.all fun before => decide (stored.columns.createdAt < before)
  live := stored.columns.expiresAt.all fun expiry => decide (now < expiry)
  text := filter.textSearch.all fun text =>
    containsCaseInsensitiveAscii stored.columns.content text

/-- The verdicts of the clause on the columns of a row. -/
def rowVerdicts : Verdicts where
  plain := plainDimensions filter stored
  after := filter.afterBound.all fun after =>
    decide (Host.toRfc3339 after ≤ Host.toRfc3339 stored.columns.createdAt)
  before := filter.beforeBound.all fun before =>
    decide (Host.toRfc3339 stored.columns.createdAt < Host.toRfc3339 before)
  live := stored.columns.expiresAt.all fun expiry =>
    decide (Host.toRfc3339 now < Host.toRfc3339 expiry)
  text := filter.textSearch.all fun text => likeContains stored.columns.content text

theorem matchesTimeRange_eq :
    matchesTimeRange filter stored.columns.createdAt =
      ((memoryVerdicts filter now stored).after && (memoryVerdicts filter now stored).before) := by
  rw [matchesTimeRange, memoryVerdicts, MemoryFilter.afterBound, MemoryFilter.beforeBound]
  cases filter.timeRange with
  | none => rfl
  | some range => rfl

theorem sqlTimeRange_eq :
    sqlTimeRange filter stored.columns.createdAt =
      ((rowVerdicts filter now stored).after && (rowVerdicts filter now stored).before) := by
  rw [sqlTimeRange, rowVerdicts, MemoryFilter.afterBound, MemoryFilter.beforeBound]
  cases filter.timeRange with
  | none => rfl
  | some range => rfl

theorem matchesNonAccessFilter_eq :
    matchesNonAccessFilter stored.hydrated filter now =
      (memoryVerdicts filter now stored).accepts := by
  have times : matchesTimeRange filter stored.hydrated.createdAt =
      ((memoryVerdicts filter now stored).after && (memoryVerdicts filter now stored).before) :=
    matchesTimeRange_eq filter now stored
  rw [matchesNonAccessFilter, times]
  simp only [Verdicts.accepts, memoryVerdicts, plainDimensions, matchesLifecycleFilter,
    StoredMemory.hydrated, Memory.withEntities]
  ac_rfl

variable {filter}

/-- Without contexts the clause for an identified caller tests the same dimensions
on stored text. -/
theorem selects_fromFilter_eq (noContexts : filter.contextIds = none)
    (noLegacyContexts : filter.legacyContextIdsAny.getD [] = []) (caller : String) :
    selects (fromFilter filter (some caller) now) stored.encoded =
      (rowVerdicts filter now stored).accepts := by
  have contexts : sqlContexts filter stored = true := by
    rw [sqlContexts, noContexts]
    cases legacy : filter.legacyContextIdsAny with
    | none => rfl
    | some ids =>
        rw [legacy, Option.getD_some] at noLegacyContexts
        rw [noLegacyContexts]
        rfl
  rw [selects_fromFilter, whereClause, sqlTimeRange_eq filter now, contexts]
  simp only [Verdicts.accepts, rowVerdicts, plainDimensions, Option.isSome_some, Bool.true_or,
    Bool.and_true]
  ac_rfl

end Dimensions

/-! ## Agreement -/

/-- Only the lowercase form of the content contains the text: the content is not
ASCII, and folding its ASCII letters alone does not show the text. -/
def FoundOnlyLowercased [Host] (content text : String) : Prop :=
  (∃ letter ∈ content.toList, 128 ≤ letter.toNat) ∧
    text.toList <:+: (Host.toLowercase content).toList ∧
    ¬ (asciiLowercase text).toList <:+: (asciiLowercase content).toList

/-- The filter without its lower bound. -/
def MemoryFilter.withoutAfter (filter : MemoryFilter) : MemoryFilter :=
  { filter with timeRange := filter.timeRange.map fun range => { range with after := none } }

/-- The filter without its upper bound. -/
def MemoryFilter.withoutBefore (filter : MemoryFilter) : MemoryFilter :=
  { filter with timeRange := filter.timeRange.map fun range => { range with before := none } }

/-- The memory without its expiry. -/
def StoredMemory.withoutExpiry (stored : StoredMemory) : StoredMemory :=
  { stored with columns := { stored.columns with expiresAt := none } }

/-- The four ways in which both tests come apart in one dimension while the test
that does not refuse it accepts every other dimension. -/
inductive PrefilterApart [Host] (filter : MemoryFilter) (caller : String) (now : Instant)
    (stored : StoredMemory) : Prop
  | text (text : String) (searched : text ∈ filter.textSearch)
      (found : FoundOnlyLowercased stored.columns.content text)
      (others : matchesNonAccessFilter stored.hydrated { filter with textSearch := none } now =
        true)
  | before (before : Instant) (bound : before ∈ filter.beforeBound) (late : AfterYear9999 before)
      (others : matchesNonAccessFilter stored.hydrated filter.withoutBefore now = true)
  | after (after : Instant) (bound : after ∈ filter.afterBound) (late : AfterYear9999 after)
      (others : selects (fromFilter filter.withoutAfter (some caller) now) stored.encoded = true)
  | now (expiry : Instant) (expires : expiry ∈ stored.columns.expiresAt)
      (late : AfterYear9999 now)
      (others : selects (fromFilter filter (some caller) now) stored.withoutExpiry.encoded = true)

theorem MemoryFilter.bounds_withoutAfter (filter : MemoryFilter) :
    filter.withoutAfter.afterBound = none ∧
      filter.withoutAfter.beforeBound = filter.beforeBound := by
  simp only [withoutAfter, afterBound, beforeBound]
  cases filter.timeRange with
  | none => exact ⟨rfl, rfl⟩
  | some range => exact ⟨rfl, rfl⟩

theorem MemoryFilter.bounds_withoutBefore (filter : MemoryFilter) :
    filter.withoutBefore.afterBound = filter.afterBound ∧
      filter.withoutBefore.beforeBound = none := by
  simp only [withoutBefore, afterBound, beforeBound]
  cases filter.timeRange with
  | none => exact ⟨rfl, rfl⟩
  | some range => exact ⟨rfl, rfl⟩

section Without

variable [Host] (filter : MemoryFilter) (now : Instant) (stored : StoredMemory)

theorem memoryVerdicts_withoutBefore :
    memoryVerdicts filter.withoutBefore now stored =
      { memoryVerdicts filter now stored with before := true } := by
  obtain ⟨after, before⟩ := filter.bounds_withoutBefore
  rw [memoryVerdicts, after, before]
  rfl

theorem rowVerdicts_withoutAfter :
    rowVerdicts filter.withoutAfter now stored =
      { rowVerdicts filter now stored with after := true } := by
  obtain ⟨after, before⟩ := filter.bounds_withoutAfter
  rw [rowVerdicts, after, before]
  rfl

variable {filter}

/-- Both tests come apart when a dimension does in which they differ and all
verdicts of the test that it does not refuse are positive. -/
theorem prefilterApart_iff (noContexts : filter.contextIds = none)
    (noLegacyContexts : filter.legacyContextIdsAny.getD [] = []) (caller : String) :
    PrefilterApart filter caller now stored ↔
      (∃ text ∈ filter.textSearch, FoundOnlyLowercased stored.columns.content text) ∧
          { memoryVerdicts filter now stored with text := true }.accepts = true ∨
        (∃ before ∈ filter.beforeBound, AfterYear9999 before) ∧
          { memoryVerdicts filter now stored with before := true }.accepts = true ∨
        (∃ after ∈ filter.afterBound, AfterYear9999 after) ∧
          { rowVerdicts filter now stored with after := true }.accepts = true ∨
        (∃ expiry ∈ stored.columns.expiresAt, AfterYear9999 now) ∧
          { rowVerdicts filter now stored with live := true }.accepts = true := by
  have withoutText : matchesNonAccessFilter stored.hydrated { filter with textSearch := none } now =
      { memoryVerdicts filter now stored with text := true }.accepts :=
    matchesNonAccessFilter_eq _ now stored
  have withoutBefore : matchesNonAccessFilter stored.hydrated filter.withoutBefore now =
      { memoryVerdicts filter now stored with before := true }.accepts := by
    rw [matchesNonAccessFilter_eq, memoryVerdicts_withoutBefore]
  have withoutAfter : selects (fromFilter filter.withoutAfter (some caller) now) stored.encoded =
      { rowVerdicts filter now stored with after := true }.accepts := by
    have without : filter.withoutAfter.contextIds = none := noContexts
    rw [selects_fromFilter_eq now stored without noLegacyContexts caller,
      rowVerdicts_withoutAfter]
  have withoutExpiry : selects (fromFilter filter (some caller) now) stored.withoutExpiry.encoded =
      { rowVerdicts filter now stored with live := true }.accepts :=
    selects_fromFilter_eq now stored.withoutExpiry noContexts noLegacyContexts caller
  rw [← withoutText, ← withoutBefore, ← withoutAfter, ← withoutExpiry]
  constructor
  · rintro (⟨text, searched, found, others⟩ | ⟨before, bound, late, others⟩ |
      ⟨after, bound, late, others⟩ | ⟨expiry, expires, late, others⟩)
    · exact Or.inl ⟨⟨text, searched, found⟩, others⟩
    · exact Or.inr (Or.inl ⟨⟨before, bound, late⟩, others⟩)
    · exact Or.inr (Or.inr (Or.inl ⟨⟨after, bound, late⟩, others⟩))
    · exact Or.inr (Or.inr (Or.inr ⟨⟨expiry, expires, late⟩, others⟩))
  · rintro (⟨⟨text, searched, found⟩, others⟩ | ⟨⟨before, bound, late⟩, others⟩ |
      ⟨⟨after, bound, late⟩, others⟩ | ⟨⟨expiry, expires, late⟩, others⟩)
    · exact .text text searched found others
    · exact .before before bound late others
    · exact .after after bound late others
    · exact .now expiry expires late others

end Without

/-- When the row lets through too much in the lower bound and the expiry and too
little in the upper bound and the text, both tests agree exactly when no such
difference meets positive verdicts in the other dimensions. -/
theorem accepts_eq_iff {row memory : Verdicts} {lateAfter lateBefore lateNow onlyText : Prop}
    (plain : row.plain = memory.plain)
    (after : (row.after = true ↔ memory.after = true ∨ lateAfter) ∧
      (lateAfter → memory.after = false))
    (before : (row.before = true ↔ memory.before = true ∧ ¬ lateBefore) ∧
      (lateBefore → memory.before = true))
    (live : (row.live = true ↔ memory.live = true ∨ lateNow) ∧ (lateNow → memory.live = false))
    (text : (row.text = true ↔ memory.text = true ∧ ¬ onlyText) ∧
      (onlyText → memory.text = true)) :
    row.accepts = memory.accepts ↔
      ¬ (onlyText ∧ { memory with text := true }.accepts = true ∨
        lateBefore ∧ { memory with before := true }.accepts = true ∨
        lateAfter ∧ { row with after := true }.accepts = true ∨
        lateNow ∧ { row with live := true }.accepts = true) := by
  obtain ⟨rowPlain, rowAfter, rowBefore, rowLive, rowText⟩ := row
  obtain ⟨memoryPlain, memoryAfter, memoryBefore, memoryLive, memoryText⟩ := memory
  cases plain
  rw [Bool.eq_iff_iff]
  simp only [Verdicts.accepts, Bool.and_eq_true, Bool.and_true] at *
  obtain ⟨after, lateAfters⟩ := after
  obtain ⟨before, lateBefores⟩ := before
  obtain ⟨live, lateNows⟩ := live
  obtain ⟨text, onlyTexts⟩ := text
  grind

section Agreement

variable [Host] {filter : MemoryFilter} {now : Instant} {stored : StoredMemory}

theorem toRfc3339_le_iff_or (clock : ∀ instant, Host.toRfc3339 instant = rfc3339 instant)
    {first second : Instant} (fourDigit : FourDigitYear second) :
    Host.toRfc3339 first ≤ Host.toRfc3339 second ↔ first ≤ second ∨ AfterYear9999 first := by
  rw [clock, clock]
  exact rfc3339_le_iff_or fourDigit

theorem toRfc3339_lt_iff_or (clock : ∀ instant, Host.toRfc3339 instant = rfc3339 instant)
    {first second : Instant} (fourDigit : FourDigitYear second) :
    Host.toRfc3339 first < Host.toRfc3339 second ↔ first < second ∨ AfterYear9999 first := by
  rw [clock, clock]
  exact rfc3339_lt_iff_or fourDigit

/-- The lower bound as text lets through what it lets through in time, and
everything when it lies after the year 9999. -/
theorem afterBound_text (clock : ∀ instant, Host.toRfc3339 instant = rfc3339 instant)
    {createdAt : Instant} (fourDigit : FourDigitYear createdAt) (bound : Option Instant) :
    ((bound.all fun after =>
        decide (Host.toRfc3339 after ≤ Host.toRfc3339 createdAt)) = true ↔
      (bound.all fun after => decide (after ≤ createdAt)) = true ∨
        ∃ after ∈ bound, AfterYear9999 after) ∧
    ((∃ after ∈ bound, AfterYear9999 after) →
      (bound.all fun after => decide (after ≤ createdAt)) = false) := by
  cases bound with
  | none => simp
  | some after =>
      simp only [Option.all_some, decide_eq_true_eq, toRfc3339_le_iff_or clock fourDigit,
        Option.mem_some_iff, exists_eq_left', decide_eq_false_iff_not, true_and]
      exact fun late => not_le.mpr (fourDigit.lt_of_afterYear9999 late)

/-- The upper bound as text lets through what it lets through in time, and
nothing when it lies after the year 9999. -/
theorem beforeBound_text (clock : ∀ instant, Host.toRfc3339 instant = rfc3339 instant)
    {createdAt : Instant} (fourDigit : FourDigitYear createdAt) (bound : Option Instant) :
    ((bound.all fun before =>
        decide (Host.toRfc3339 createdAt < Host.toRfc3339 before)) = true ↔
      (bound.all fun before => decide (createdAt < before)) = true ∧
        ¬ ∃ before ∈ bound, AfterYear9999 before) ∧
    ((∃ before ∈ bound, AfterYear9999 before) →
      (bound.all fun before => decide (createdAt < before)) = true) := by
  cases bound with
  | none => simp
  | some before =>
      simp only [Option.all_some, decide_eq_true_eq, ← not_le (a := Host.toRfc3339 before),
        toRfc3339_le_iff_or clock fourDigit, Option.mem_some_iff, exists_eq_left', not_or, not_le,
        true_and]
      exact fourDigit.lt_of_afterYear9999

/-- Expiries as text let through what they let through in time, and everything
once the year 9999 has ended. -/
theorem expiry_text (clock : ∀ instant, Host.toRfc3339 instant = rfc3339 instant)
    {expiresAt : Option Instant} (fourDigit : ∀ expiry ∈ expiresAt, FourDigitYear expiry)
    (now : Instant) :
    ((expiresAt.all fun expiry => decide (Host.toRfc3339 now < Host.toRfc3339 expiry)) = true ↔
      (expiresAt.all fun expiry => decide (now < expiry)) = true ∨
        ∃ expiry ∈ expiresAt, AfterYear9999 now) ∧
    ((∃ expiry ∈ expiresAt, AfterYear9999 now) →
      (expiresAt.all fun expiry => decide (now < expiry)) = false) := by
  cases expiresAt with
  | none => simp
  | some expiry =>
      have expiryYear := fourDigit expiry rfl
      simp only [Option.all_some, decide_eq_true_eq, toRfc3339_lt_iff_or clock expiryYear,
        Option.mem_some_iff, exists_eq_left', decide_eq_false_iff_not, true_and]
      exact fun late => not_lt.mpr (expiryYear.lt_of_afterYear9999 late).le

/-- `LIKE` finds the text of a normalized filter where the Rust predicate does,
unless only the lowercase content contains it. -/
theorem likeContains_iff_not_foundOnlyLowercased {lowerChar : Char → List Char}
    (laws : UnicodeLowercase lowerChar) (content original : String) :
    likeContains content (Host.toLowercase original) = true ↔
      containsCaseInsensitiveAscii content (Host.toLowercase original) = true ∧
        ¬ FoundOnlyLowercased content (Host.toLowercase original) := by
  constructor
  · intro found
    refine ⟨containsCaseInsensitiveAscii_of_likeContains laws found, ?_⟩
    rintro ⟨_, _, missing⟩
    exact missing (likeContains_iff.mp found)
  · rintro ⟨found, notOnly⟩
    by_cases ascii : (content.toList.all fun letter => decide (letter.toNat < 128)) = true
    · exact likeContains_of_ascii laws ascii found
    · have lowered := containsCaseInsensitiveAscii_iff.mp found
      rw [if_neg ascii] at lowered
      have foreign : ∃ letter ∈ content.toList, 128 ≤ letter.toNat := by
        simpa only [List.all_eq_true, decide_eq_true_eq, not_forall, exists_prop, not_lt]
          using ascii
      by_contra missing
      exact notOnly ⟨foreign, lowered, fun contained => missing (likeContains_iff.mpr contained)⟩

theorem containsCaseInsensitiveAscii_of_foundOnlyLowercased {content text : String}
    (found : FoundOnlyLowercased content text) :
    containsCaseInsensitiveAscii content text = true := by
  obtain ⟨⟨letter, letterMem, foreign⟩, lowered, _⟩ := found
  rw [containsCaseInsensitiveAscii_iff, if_neg]
  · exact lowered
  · intro ascii
    have small := decide_eq_true_iff.mp (List.all_eq_true.mp ascii letter letterMem)
    exact absurd small (Nat.not_lt.mpr foreign)

theorem text_text {lowerChar : Char → List Char} (laws : UnicodeLowercase lowerChar)
    {search : Option String} (lowercase : ∀ text ∈ search, ∃ original,
      text = Host.toLowercase original) (content : String) :
    ((search.all fun text => likeContains content text) = true ↔
      (search.all fun text => containsCaseInsensitiveAscii content text) = true ∧
        ¬ ∃ text ∈ search, FoundOnlyLowercased content text) ∧
    ((∃ text ∈ search, FoundOnlyLowercased content text) →
      (search.all fun text => containsCaseInsensitiveAscii content text) = true) := by
  cases search with
  | none => simp
  | some text =>
      obtain ⟨original, rfl⟩ := lowercase text rfl
      simp only [Option.all_some, Option.mem_some_iff, exists_eq_left']
      exact ⟨likeContains_iff_not_foundOnlyLowercased laws content original,
        containsCaseInsensitiveAscii_of_foundOnlyLowercased⟩

theorem normalizeFilter_textSearch (filter : MemoryFilter) :
    ∀ text ∈ (normalizeFilter filter).textSearch, ∃ original, text = Host.toLowercase original := by
  intro text searched
  obtain ⟨lowered, _⟩ := Option.filter_eq_some_iff.mp searched
  obtain ⟨original, _, rfl⟩ := Option.map_eq_some_iff.mp lowered
  exact ⟨trim original, rfl⟩

/-- For a filter without contexts the clause for an identified caller selects a
row exactly when the Rust predicate accepts the decoded memory, unless both come
apart in the text search or in a time after the year 9999. -/
theorem prefilter_agrees_iff {lowerChar : Char → List Char} (laws : UnicodeLowercase lowerChar)
    (clock : ∀ instant, Host.toRfc3339 instant = rfc3339 instant)
    (noContexts : filter.contextIds = none)
    (noLegacyContexts : filter.legacyContextIdsAny.getD [] = []) (caller : String)
    (decodable : stored.Decodable) (now : Instant) :
    selects (fromFilter (normalizeFilter filter) (some caller) now) stored.encoded =
        matchesNonAccessFilter stored.hydrated (normalizeFilter filter) now ↔
      ¬ PrefilterApart (normalizeFilter filter) caller now stored := by
  have normalContexts : (normalizeFilter filter).contextIds = none := noContexts
  have normalLegacyContexts : (normalizeFilter filter).legacyContextIdsAny.getD [] = [] :=
    noLegacyContexts
  rw [selects_fromFilter_eq now stored normalContexts normalLegacyContexts,
    matchesNonAccessFilter_eq,
    prefilterApart_iff now stored normalContexts normalLegacyContexts caller]
  refine accepts_eq_iff rfl ?_ ?_ ?_ ?_
  · exact afterBound_text clock decodable.created _
  · exact beforeBound_text clock decodable.created _
  · exact expiry_text clock decodable.expires now
  · exact text_text laws (normalizeFilter_textSearch filter) stored.columns.content

end Agreement

/-! ## Letters beyond ASCII -/

/-- The lowercase letter of an ASCII letter, of a capital E with an acute accent
and of a capital sigma. -/
def lowerLetter (letter : Char) : Char :=
  if letter = 'É' then 'é' else if letter = 'Σ' then 'σ' else letter.toLower

/-- A host that lowercases these letters. -/
@[reducible]
def accentHost : Host where
  toLowercase text := String.ofList (text.toList.map lowerLetter)
  toRfc3339 := rfc3339
  debugText text := "\"" ++ text ++ "\""

/-- A lowercased letter stays as it is. -/
theorem lowerLetter_stable (letter : Char) :
    lowerLetter (lowerLetter letter) = lowerLetter letter ∧ lowerLetter letter ≠ 'Σ' := by
  by_cases small : letter.toNat < 128
  · have all : ∀ code < 128, lowerLetter (lowerLetter (Char.ofNat code)) =
        lowerLetter (Char.ofNat code) ∧ lowerLetter (Char.ofNat code) ≠ 'Σ' := by decide
    have stable := all letter.toNat small
    rwa [Char.ofNat_toNat] at stable
  · by_cases accent : letter = 'É'
    · rw [accent]
      decide
    · by_cases sigma : letter = 'Σ'
      · rw [sigma]
        decide
      · have fixed : lowerLetter letter = letter := by
          rw [lowerLetter, if_neg accent, if_neg sigma, toLower_of_not_ascii small]
        rw [fixed, fixed]
        exact ⟨rfl, sigma⟩

theorem toLowercase_accentHost (text : String) :
    (@Host.toLowercase accentHost text).toList = text.toList.map lowerLetter :=
  String.toList_ofList

theorem unicodeLowercase_accentHost :
    @UnicodeLowercase accentHost fun letter => [lowerLetter letter] := by
  refine @UnicodeLowercase.mk accentHost _ ?_ ?_ ?_
  · intro letter small
    have notAccent : letter ≠ 'É' := by
      rintro rfl
      exact absurd small (by decide)
    have notSigma : letter ≠ 'Σ' := by
      rintro rfl
      exact absurd small (by decide)
    rw [lowerLetter, if_neg notAccent, if_neg notSigma]
  · intro text letter letterMem
    rw [toLowercase_accentHost, List.mem_map] at letterMem
    obtain ⟨original, _, rfl⟩ := letterMem
    obtain ⟨fixed, notSigma⟩ := lowerLetter_stable original
    exact ⟨by rw [fixed], notSigma⟩
  · intro before piece after _
    refine ⟨before.map lowerLetter, after.map lowerLetter, ?_⟩
    rw [toLowercase_accentHost, String.toList_ofList, List.map_append, List.map_append,
      ← List.map_eq_flatMap]

/-- A stored memory with this content. -/
def storedNote (content : String) : StoredMemory where
  columns := Memory.plain ⟨1⟩ "alpha" content 1704164645000000000
  entities := []
  contexts := []
  vector := none

/-- A filter that searches a text. -/
def textFilter (text : String) : MemoryFilter :=
  { MemoryFilter.default with textSearch := some text }

theorem decodable_storedNote (content : String) : (storedNote content).Decodable where
  created := by
    have fourDigit : FourDigitYear 1704164645000000000 := by decide
    exact fourDigit
  expires := fun _ expires => by cases expires

/-- Both tests find an ASCII text in a content that is not ASCII. -/
theorem prefilter_agrees_atlas :
    selects (@fromFilter accentHost (@normalizeFilter accentHost (textFilter " Atlas "))
        (some "bravo") 1704164645000000000)
        (@StoredMemory.encoded accentHost (storedNote "É: an ATLAS")) =
      @matchesNonAccessFilter accentHost (storedNote "É: an ATLAS").hydrated
        (@normalizeFilter accentHost (textFilter " Atlas ")) 1704164645000000000 := by
  refine (@prefilter_agrees_iff accentHost _ _ _ unicodeLowercase_accentHost (fun _ => rfl) rfl rfl
    "bravo" (decodable_storedNote _) 1704164645000000000).mpr ?_
  have searched : (@normalizeFilter accentHost (textFilter " Atlas ")).textSearch =
      some "atlas" := by decide
  rintro (⟨text, textMem, found, _⟩ | ⟨_, bound, _, _⟩ | ⟨_, bound, _, _⟩ | ⟨_, expires, _, _⟩)
  · rw [searched] at textMem
    cases textMem
    exact found.2.2 (by decide)
  · cases bound
  · cases bound
  · cases expires

/-- The row of a content in capitals is dropped when its accented letters are
searched, although the Rust predicate keeps it. -/
theorem prefilter_drops_accent :
    selects (@fromFilter accentHost (@normalizeFilter accentHost (textFilter "É"))
        (some "bravo") 1704164645000000000)
        (@StoredMemory.encoded accentHost (storedNote "É")) = false ∧
      @matchesNonAccessFilter accentHost (storedNote "É").hydrated
        (@normalizeFilter accentHost (textFilter "É")) 1704164645000000000 = true := by
  rw [@selects_fromFilter accentHost]
  decide

end LocalHold
