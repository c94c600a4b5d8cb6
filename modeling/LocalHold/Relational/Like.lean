import Mathlib.Data.List.Infix

/-!
# Patterns of `LIKE`

A percent sign matches any text, an underscore any letter, an escaped letter
itself, and other letters match in either case as long as they are ASCII
letters.  A text whose special letters are escaped, between two percent signs,
matches exactly the texts that contain it up to ASCII case.
-/

namespace Relational

/-- The next letter of a text is a given one, in either ASCII case. -/
def headLike (letter : Char) : List Char → Bool
  | [] => false
  | head :: _ => head.toLower == letter.toLower

/-- `text LIKE pattern ESCAPE '\'`. -/
def likeMatch : List Char → List Char → Bool
  | [], text => text.isEmpty
  | '%' :: pattern, text => text.tails.any (likeMatch pattern)
  | ['\\'], _ => false
  | '\\' :: letter :: pattern, text => headLike letter text && likeMatch pattern text.tail
  | '_' :: pattern, text => !text.isEmpty && likeMatch pattern text.tail
  | letter :: pattern, text => headLike letter text && likeMatch pattern text.tail

/-- Whether a letter has a meaning of its own in patterns. -/
def isLikeSpecial (letter : Char) : Bool :=
  letter == '\\' || letter == '%' || letter == '_'

/-- Escape the letters that have a meaning of their own. -/
def escapeLetters : List Char → List Char
  | [] => []
  | letter :: text =>
      if isLikeSpecial letter then '\\' :: letter :: escapeLetters text
      else letter :: escapeLetters text

theorem likeMatch_literal {letter : Char} (plain : isLikeSpecial letter = false)
    (pattern text : List Char) :
    likeMatch (letter :: pattern) text = (headLike letter text && likeMatch pattern text.tail) := by
  simp only [isLikeSpecial, Bool.or_eq_false_iff, beq_eq_false_iff_ne] at plain
  rw [likeMatch]
  · exact plain.1.2
  · exact fun same _ => plain.1.1 same
  · exact fun _ _ same _ => plain.1.1 same
  · exact plain.2

/-- One escaped letter of a pattern. -/
theorem likeMatch_escaped (letter : Char) (text rest content : List Char) :
    likeMatch (escapeLetters (letter :: text) ++ rest) content =
      (headLike letter content && likeMatch (escapeLetters text ++ rest) content.tail) := by
  rw [escapeLetters]
  cases special : isLikeSpecial letter with
  | true => rfl
  | false => exact likeMatch_literal special _ _

theorem likeMatch_escapeLetters_append {text rest content : List Char} :
    likeMatch (escapeLetters text ++ rest) content = true ↔
      ∃ found left, content = found ++ left ∧
        found.map Char.toLower = text.map Char.toLower ∧ likeMatch rest left = true := by
  induction text generalizing content with
  | nil =>
      constructor
      · intro rests
        exact ⟨[], content, rfl, rfl, rests⟩
      · rintro ⟨found, left, rfl, empty, rests⟩
        rw [List.map_nil, List.map_eq_nil_iff] at empty
        rw [empty]
        exact rests
  | cons letter text inductionHypothesis =>
      rw [likeMatch_escaped, Bool.and_eq_true, inductionHypothesis]
      constructor
      · rintro ⟨heads, found, left, tailEq, same, rests⟩
        cases content with
        | nil => cases heads
        | cons head content =>
            have headEq : head.toLower = letter.toLower := eq_of_beq heads
            refine ⟨head :: found, left, ?_, ?_, rests⟩
            · rw [List.cons_append, ← tailEq]
              rfl
            · rw [List.map_cons, List.map_cons, headEq, same]
      · rintro ⟨found, left, rfl, same, rests⟩
        cases found with
        | nil => cases same
        | cons head found =>
            rw [List.map_cons, List.map_cons, List.cons.injEq] at same
            exact ⟨beq_iff_eq.mpr same.1, found, left, rfl, same.2, rests⟩

theorem likeMatch_percent (pattern text : List Char) :
    likeMatch ('%' :: pattern) text = true ↔
      ∃ skipped left, text = skipped ++ left ∧ likeMatch pattern left = true := by
  have unfolded : likeMatch ('%' :: pattern) text = text.tails.any (likeMatch pattern) := rfl
  rw [unfolded, List.any_eq_true]
  constructor
  · rintro ⟨left, leftMem, rests⟩
    obtain ⟨skipped, split⟩ := (List.mem_tails _ _).mp leftMem
    exact ⟨skipped, left, split.symm, rests⟩
  · rintro ⟨skipped, left, rfl, rests⟩
    exact ⟨left, (List.mem_tails _ _).mpr (List.suffix_append _ _), rests⟩

/-- An escaped text between percent signs matches the texts that contain it. -/
theorem likeMatch_contains_iff {text content : List Char} :
    likeMatch ('%' :: (escapeLetters text ++ ['%'])) content = true ↔
      text.map Char.toLower <:+: content.map Char.toLower := by
  rw [likeMatch_percent]
  constructor
  · rintro ⟨skipped, left, rfl, rests⟩
    obtain ⟨found, rest, rfl, same, _⟩ := likeMatch_escapeLetters_append.mp rests
    rw [← same, List.map_append, List.map_append]
    exact ⟨skipped.map Char.toLower, rest.map Char.toLower, by rw [List.append_assoc]⟩
  · rintro ⟨before, after, split⟩
    rw [List.append_assoc, eq_comm, List.map_eq_append_iff] at split
    obtain ⟨skipped, left, rfl, _, split⟩ := split
    obtain ⟨found, rest, rfl, same, _⟩ := List.map_eq_append_iff.mp split
    refine ⟨skipped, found ++ rest, rfl, ?_⟩
    refine likeMatch_escapeLetters_append.mpr ⟨found, rest, rfl, same, ?_⟩
    rw [likeMatch_percent]
    exact ⟨rest, [], (List.append_nil rest).symm, rfl⟩

end Relational
