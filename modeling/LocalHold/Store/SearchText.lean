import LocalHold.Coding.Quoted
import LocalHold.Store.WhereClause

/-!
# Texts of a search

`sanitize_fts_query_with_context` quotes every word of a query, so that the
full-text expression consists of quoted strings only, and reads back as the
words.  `escape_like` escapes the letters that have a meaning in `LIKE` patterns,
so that a pattern matches exactly the contents that contain the text.
-/

namespace LocalHold

open Coding Relational

/-! ## Words -/

/-- `str::split_whitespace`. -/
def splitWhitespace (text : String) : List String :=
  ((text.toList.splitOnP isWhitespace).filter fun word => !word.isEmpty).map String.ofList

/-- The words of a text: the longest runs of letters that are not white space, in
order. -/
inductive WordsOf : List (List Char) → List Char → Prop where
  | gap {text : List Char} (blank : ∀ letter ∈ text, isWhitespace letter = true) : WordsOf [] text
  | word {gap word rest : List Char} {words : List (List Char)}
      (blank : ∀ letter ∈ gap, isWhitespace letter = true) (nonempty : word ≠ [])
      (solid : ∀ letter ∈ word, isWhitespace letter = false)
      (ends : ∀ letter, rest.head? = some letter → isWhitespace letter = true)
      (others : WordsOf words rest) : WordsOf (word :: words) (gap ++ (word ++ rest))

/-! ## Full-text expressions -/

/-- The letters that FTS5 skips between tokens. -/
def isFtsSpace (letter : Char) : Bool :=
  letter == ' ' || letter == '\t' || letter == '\n' || letter == '\r'

/-- The letters that are tokens of FTS5 by themselves. -/
def isFtsOperator (letter : Char) : Bool :=
  "()\x7b\x7d:,+*-^".toList.contains letter

/-- The letters of a bareword of FTS5. -/
def isFtsBareword (letter : Char) : Bool :=
  letter.isAlphanum || letter == '_' || letter.toNat == 26 || 128 ≤ letter.toNat

/-- A token of an FTS5 expression.  `AND`, `OR`, `NOT` and `NEAR` are barewords. -/
inductive FtsToken where
  | string (content : List Char)
  | bareword (letters : List Char)
  | operator (letter : Char)
deriving DecidableEq

/-- The tokens of an FTS5 expression. -/
def ftsTokens : List Char → Option (List FtsToken)
  | [] => some []
  | letter :: rest =>
      if isFtsSpace letter then ftsTokens rest
      else if letter = '"' then
        match _read : readQuoted '"' rest with
        | none => none
        | some (content, left) => (ftsTokens left).map (.string content :: ·)
      else if isFtsOperator letter then (ftsTokens rest).map (.operator letter :: ·)
      else if isFtsBareword letter then
        (ftsTokens (rest.dropWhile isFtsBareword)).map
          (.bareword (letter :: rest.takeWhile isFtsBareword) :: ·)
      else none
termination_by text => text.length
decreasing_by
  · simp
  · exact Nat.lt_succ_of_lt (length_lt_of_readQuoted _read)
  · simp
  · exact Nat.lt_succ_of_le (List.dropWhile_suffix _).length_le

/-- A word between quotes, its own quotes doubled. -/
def ftsPhrase (word : String) : String :=
  String.ofList (quoted '"' word.toList)

/-- `sanitize_fts_query_with_context`: the context is ignored. -/
def sanitizeFtsQueryWithContext (query : String) (_context : Option String) : Option String :=
  let mainTokens := ((splitWhitespace query).filter (· ≠ "")).map ftsPhrase
  if mainTokens.isEmpty then none else some (" ".intercalate mainTokens)

/-! ## The words of a query -/

theorem wordsOf_blank_append {gap text : List Char} {words : List (List Char)}
    (blank : ∀ letter ∈ gap, isWhitespace letter = true) (spelled : WordsOf words text) :
    WordsOf words (gap ++ text) := by
  cases spelled with
  | gap rest =>
      refine WordsOf.gap fun letter member => ?_
      rcases List.mem_append.mp member with inGap | inText
      · exact blank letter inGap
      · exact rest letter inText
  | word inner nonempty solid ends others =>
      rw [← List.append_assoc]
      refine WordsOf.word (fun letter member => ?_) nonempty solid ends others
      rcases List.mem_append.mp member with inGap | inText
      · exact blank letter inGap
      · exact inner letter inText

/-- Splitting a text at white space gives the letters up to the first white
space, and then the rest. -/
theorem splitOnP_takeWhile (split : Char → Bool) (text : List Char) :
    text.splitOnP split =
      match text.dropWhile fun letter => !split letter with
      | [] => [text]
      | _ :: rest => (text.takeWhile fun letter => !split letter) :: rest.splitOnP split := by
  induction text with
  | nil => rfl
  | cons letter text inductionHypothesis =>
      rw [List.splitOnP_cons_eq_if_modifyHead]
      cases splits : split letter with
      | true => simp [splits]
      | false =>
          rw [inductionHypothesis]
          simp only [List.dropWhile_cons, List.takeWhile_cons, splits, Bool.not_false, if_true,
            Bool.false_eq_true, if_false]
          cases text.dropWhile fun letter => !split letter <;> rfl

/-- The pieces between white space that are not empty are the words. -/
theorem wordsOf_splitOnP (text : List Char) :
    WordsOf ((text.splitOnP isWhitespace).filter fun word => !word.isEmpty) text := by
  induction sized : text.length using Nat.strong_induction_on generalizing text with
  | _ size inductionHypothesis =>
      have parts := List.takeWhile_append_dropWhile (p := fun letter => !isWhitespace letter)
        (l := text)
      have solid : ∀ letter ∈ text.takeWhile fun letter => !isWhitespace letter,
          isWhitespace letter = false := by
        intro letter member
        simpa using List.mem_takeWhile_imp member
      rw [splitOnP_takeWhile]
      cases rests : text.dropWhile fun letter => !isWhitespace letter with
      | nil =>
          dsimp only
          rw [rests, List.append_nil] at parts
          rw [parts] at solid
          cases text with
          | nil => exact WordsOf.gap (by simp)
          | cons letter text =>
              have last : WordsOf [letter :: text] ([] ++ ((letter :: text) ++ [])) :=
                WordsOf.word (List.forall_mem_nil _) (List.cons_ne_nil letter text) solid
                  nofun (WordsOf.gap (List.forall_mem_nil _))
              simpa using last
      | cons space rest =>
          dsimp only
          have isSpace : isWhitespace space = true := by
            have stopped := List.head?_dropWhile_not (fun letter => !isWhitespace letter) text
            rw [rests] at stopped
            simpa using stopped
          have shorter : rest.length < size := by
            have lengths := congrArg List.length parts
            rw [rests, List.length_append, List.length_cons, sized] at lengths
            omega
          have others := inductionHypothesis rest.length shorter rest rfl
          have blankRest := @wordsOf_blank_append [space] _ _ (by simpa using isSpace) others
          rw [rests] at parts
          rw [List.filter_cons]
          by_cases empty : (text.takeWhile fun letter => !isWhitespace letter) = []
          · rw [empty, List.nil_append] at parts
            rw [empty, if_neg (by simp), ← parts]
            exact blankRest
          · rw [if_pos (by simpa using empty)]
            have first := WordsOf.word (List.forall_mem_nil _) empty solid
              (by simpa using isSpace) blankRest
            rw [List.nil_append, List.singleton_append, parts] at first
            exact first

theorem WordsOf.nonempty {words : List (List Char)} {text : List Char}
    (spelled : WordsOf words text) : ∀ word ∈ words, word ≠ [] := by
  induction spelled with
  | gap => simp
  | word _ nonempty _ _ _ inductionHypothesis =>
      exact List.forall_mem_cons.mpr ⟨nonempty, inductionHypothesis⟩

/-- A text has no words when it consists of white space. -/
theorem WordsOf.eq_nil_iff {words : List (List Char)} {text : List Char}
    (spelled : WordsOf words text) :
    words = [] ↔ ∀ letter ∈ text, isWhitespace letter = true := by
  cases spelled with
  | gap blank => exact iff_of_true rfl blank
  | @word gap word rest words blank nonempty solid ends others =>
      refine iff_of_false (by simp) fun all => ?_
      obtain ⟨letter, member⟩ := List.exists_mem_of_ne_nil word nonempty
      have isSpace := all letter (by simp [member])
      rw [solid letter member] at isSpace
      cases isSpace

/-! ## Reading the expression -/

theorem ftsTokens_phrase (word : String) {rest : List Char} (ends : rest.head? ≠ some '"') :
    ftsTokens ((ftsPhrase word).toList ++ rest) =
      (ftsTokens rest).map (.string word.toList :: ·) := by
  have read := readQuoted_doubleQuotes word.toList ends
  rw [ftsPhrase, String.toList_ofList, quoted, List.cons_append, List.append_assoc,
    List.singleton_append, ftsTokens, if_neg (by decide), if_pos rfl]
  split
  · next failed => rw [read] at failed; cases failed
  · next content left found =>
      rw [read] at found
      cases found
      rfl

theorem ftsTokens_space (rest : List Char) : ftsTokens (' ' :: rest) = ftsTokens rest := by
  rw [ftsTokens, if_pos (by decide)]

/-- Quoted words in a row read back as the words. -/
theorem ftsTokens_intercalate (words : List String) :
    ftsTokens (" ".intercalate (words.map ftsPhrase)).toList =
      some (words.map fun word => .string word.toList) := by
  induction words with
  | nil =>
      rw [List.map_nil, String.intercalate_nil, String.toList_empty, ftsTokens]
      rfl
  | cons word words inductionHypothesis =>
      cases words with
      | nil =>
          have single := @ftsTokens_phrase word [] (by simp)
          rw [List.append_nil] at single
          rw [List.map_singleton, String.intercalate_singleton, single, ftsTokens]
          rfl
      | cons other words =>
          rw [List.map_cons, List.map_cons] at inductionHypothesis ⊢
          have spaced : (" " : String).toList = [' '] := rfl
          rw [String.intercalate_cons_cons, String.toList_append, String.toList_append,
            List.append_assoc, spaced, List.singleton_append, ftsTokens_phrase word (by simp),
            ftsTokens_space, inductionHypothesis]
          rfl

theorem splitWhitespace_words (query : String) :
    WordsOf ((splitWhitespace query).map String.toList) query.toList := by
  rw [splitWhitespace, List.map_map]
  have spelled := wordsOf_splitOnP query.toList
  simpa [Function.comp_def] using spelled

theorem splitWhitespace_nonempty (query : String) :
    (splitWhitespace query).filter (· ≠ "") = splitWhitespace query := by
  refine List.filter_eq_self.mpr fun word member => ?_
  have nonempty := (splitWhitespace_words query).nonempty word.toList (List.mem_map_of_mem member)
  exact decide_eq_true fun empty => nonempty (by rw [empty]; rfl)

theorem sanitizeFtsQueryWithContext_eq (query : String) (context : Option String) :
    sanitizeFtsQueryWithContext query context =
      if splitWhitespace query = [] then none
      else some (" ".intercalate ((splitWhitespace query).map ftsPhrase)) := by
  rw [sanitizeFtsQueryWithContext, splitWhitespace_nonempty]
  cases splitWhitespace query <;> rfl

/-- A query without words has no expression; any other becomes its words, each
between quotes, and reads back as them: no operator, column filter or prefix
comes from the text. -/
theorem fts_query_reads_back (query : String) (context : Option String) :
    (sanitizeFtsQueryWithContext query context = none ↔
      ∀ letter ∈ query.toList, isWhitespace letter = true) ∧
    ∀ expression, sanitizeFtsQueryWithContext query context = some expression →
      WordsOf ((splitWhitespace query).map String.toList) query.toList ∧
        expression = " ".intercalate ((splitWhitespace query).map ftsPhrase) ∧
        ftsTokens expression.toList =
          some ((splitWhitespace query).map fun word => .string word.toList) := by
  have spelled := splitWhitespace_words query
  rw [sanitizeFtsQueryWithContext_eq]
  constructor
  · rw [← spelled.eq_nil_iff, List.map_eq_nil_iff]
    split
    · next empty => exact iff_of_true rfl empty
    · next some => exact iff_of_false (by simp) some
  · intro expression sanitized
    split at sanitized
    · cases sanitized
    · cases sanitized
      exact ⟨spelled, rfl, ftsTokens_intercalate _⟩

/-! ## Patterns -/

/-- The parameter of the text condition: `format!("%{}%", escape_like(text))`. -/
def likePattern (text : String) : String :=
  "%" ++ escapeLike text ++ "%"

/-- `content LIKE pattern ESCAPE '\'`. -/
def sqlLike (content pattern : String) : Bool :=
  likeMatch pattern.toList content.toList

theorem toList_likePattern (text : String) :
    (likePattern text).toList = '%' :: ((escapeLike text).toList ++ ['%']) := by
  rw [likePattern, String.toList_append, String.toList_append]
  rfl

/-- A pattern matches the contents in which some part is the text, up to the case
of ASCII letters. -/
theorem like_pattern_exact (needle haystack : String) :
    sqlLike haystack (likePattern needle) = true ↔
      ∃ before found after : String, haystack = before ++ found ++ after ∧
        asciiLowercase found = asciiLowercase needle := by
  rw [sqlLike, toList_likePattern, likeMatch_percent]
  constructor
  · rintro ⟨before, left, split, rests⟩
    rw [escapeLike, String.toList_ofList] at rests
    obtain ⟨found, after, rfl, same, _⟩ := likeMatch_escapeLetters_append.mp rests
    refine ⟨String.ofList before, String.ofList found, String.ofList after, ?_, ?_⟩
    · rw [← String.ofList_append, ← String.ofList_append, List.append_assoc, ← split,
        String.ofList_toList]
    · rw [asciiLowercase, asciiLowercase, String.toList_ofList, same]
  · rintro ⟨before, found, after, rfl, same⟩
    refine ⟨before.toList, found.toList ++ after.toList, ?_, ?_⟩
    · rw [String.toList_append, String.toList_append, List.append_assoc]
    · have letters := congrArg String.toList same
      rw [asciiLowercase, asciiLowercase, String.toList_ofList, String.toList_ofList] at letters
      rw [escapeLike, String.toList_ofList]
      refine likeMatch_escapeLetters_append.mpr ⟨found.toList, after.toList, rfl, letters, ?_⟩
      exact (likeMatch_percent _ _).mpr ⟨after.toList, [], (List.append_nil _).symm, rfl⟩

end LocalHold
