import Mathlib.Data.List.Basic

/-!
# Quoted texts with doubled quotes

A text between quotes in which every quote is doubled.  Reading ends at the
first quote that is not doubled, and gives the text back with what follows.
-/

namespace Coding

universe u

variable {β : Type u} [DecidableEq β]

/-- Double every quote. -/
def doubleQuotes (quote : β) (text : List β) : List β :=
  text.flatMap fun letter => if letter = quote then [quote, quote] else [letter]

/-- A quoted text. -/
def quoted (quote : β) (text : List β) : List β :=
  quote :: (doubleQuotes quote text ++ [quote])

/-- Read behind an opening quote up to the first quote that is not doubled: the
text and what follows it. -/
def readQuoted (quote : β) : List β → Option (List β × List β)
  | [] => none
  | [letter] => if letter = quote then some ([], []) else none
  | letter :: next :: rest =>
      if letter = quote then
        if next = quote then (readQuoted quote rest).map fun read => (quote :: read.1, read.2)
        else some ([], next :: rest)
      else (readQuoted quote (next :: rest)).map fun read => (letter :: read.1, read.2)

/-- Reading consumes the closing quote. -/
theorem length_lt_of_readQuoted {quote : β} {text content left : List β}
    (read : readQuoted quote text = some (content, left)) : left.length < text.length := by
  fun_induction readQuoted quote text generalizing content left with
  | case1 => cases read
  | case2 =>
      cases read
      exact Nat.lt_succ_self 0
  | case3 => cases read
  | case4 rest inductionHypothesis =>
      obtain ⟨⟨inner, remains⟩, readRest, same⟩ := Option.map_eq_some_iff.mp read
      cases same
      have shorter := inductionHypothesis readRest
      simp only [List.length_cons]
      omega
  | case5 =>
      cases read
      simp
  | case6 letter next rest _ inductionHypothesis =>
      obtain ⟨⟨inner, remains⟩, readRest, same⟩ := Option.map_eq_some_iff.mp read
      cases same
      have shorter := inductionHypothesis readRest
      simp only [List.length_cons] at shorter ⊢
      omega

theorem readQuoted_cons_of_ne {quote letter : β} (different : letter ≠ quote) (text : List β) :
    readQuoted quote (letter :: text) =
      (readQuoted quote text).map fun read => (letter :: read.1, read.2) := by
  cases text with
  | nil => simp only [readQuoted, if_neg different, Option.map_none]
  | cons next rest => rw [readQuoted, if_neg different]

/-- A quoted text reads back, unless a further quote follows it. -/
theorem readQuoted_doubleQuotes {quote : β} (text : List β) {rest : List β}
    (ends : rest.head? ≠ some quote) :
    readQuoted quote (doubleQuotes quote text ++ quote :: rest) = some (text, rest) := by
  induction text with
  | nil =>
      rw [doubleQuotes, List.flatMap_nil, List.nil_append]
      cases rest with
      | nil => rw [readQuoted, if_pos rfl]
      | cons next rest =>
          have single : next ≠ quote := fun same => ends (congrArg some same)
          rw [readQuoted, if_pos rfl, if_neg single]
  | cons letter text inductionHypothesis =>
      rw [doubleQuotes] at inductionHypothesis
      rw [doubleQuotes, List.flatMap_cons]
      by_cases isQuote : letter = quote
      · subst isQuote
        rw [if_pos rfl, List.append_assoc, List.cons_append, List.cons_append, List.nil_append,
          readQuoted, if_pos rfl, if_pos rfl, inductionHypothesis]
        rfl
      · rw [if_neg isQuote, List.append_assoc, List.singleton_append,
          readQuoted_cons_of_ne isQuote, inductionHypothesis]
        rfl

end Coding
