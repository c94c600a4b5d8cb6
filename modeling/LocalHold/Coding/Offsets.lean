import Mathlib

/-!
# Offsets into a text of letters of several widths

Every letter of a text takes some room, as a character of UTF-8 takes one to
four bytes.  An offset counts the room in front of it.  A text can be cut at
the offsets between two letters and at no others, and the two pieces are
determined by the offset.
-/

namespace Coding

universe u

variable {β : Type u} (width : β → Nat)

/-- The room a text takes. -/
def extent (text : List β) : Nat :=
  (text.map width).sum

/-- Cut a text at an offset, unless a letter lies across it or the text ends
before it. -/
def cutAt : List β → Nat → Option (List β × List β)
  | text, 0 => some ([], text)
  | [], _ + 1 => none
  | letter :: text, offset + 1 =>
      if width letter ≤ offset + 1 then
        (cutAt text (offset + 1 - width letter)).map fun pieces => (letter :: pieces.1, pieces.2)
      else none

/-- The letters with their offsets, from a first offset on. -/
def indicesFrom : Nat → List β → List (Nat × β)
  | _, [] => []
  | offset, letter :: text => (offset, letter) :: indicesFrom (offset + width letter) text

/-- The offset of the first letter that is wanted. -/
def findOffset (wanted : β → Bool) (text : List β) : Option Nat :=
  ((indicesFrom width 0 text).find? fun index => wanted index.2).map Prod.fst

/-- The offset of the last letter that is wanted. -/
def rfindOffset (wanted : β → Bool) (text : List β) : Option Nat :=
  ((indicesFrom width 0 text).reverse.find? fun index => wanted index.2).map Prod.fst

variable {width}

@[simp]
theorem extent_nil : extent width [] = 0 :=
  rfl

@[simp]
theorem extent_cons (letter : β) (text : List β) :
    extent width (letter :: text) = width letter + extent width text :=
  rfl

@[simp]
theorem extent_append (before after : List β) :
    extent width (before ++ after) = extent width before + extent width after := by
  simp [extent]

theorem extent_le_of_append {text before after : List β} (split : text = before ++ after) :
    extent width before ≤ extent width text := by
  rw [split, extent_append]
  exact Nat.le_add_right _ _

/-! ## Cutting -/

/-- The pieces of a cut make up the text, and the first takes the room in front
of the offset. -/
theorem of_cutAt {text before after : List β} {offset : Nat}
    (cut : cutAt width text offset = some (before, after)) :
    text = before ++ after ∧ extent width before = offset := by
  fun_induction cutAt width text offset generalizing before after with
  | case1 =>
      cases cut
      exact ⟨rfl, rfl⟩
  | case2 => cases cut
  | case3 letter text offset small inductionHypothesis =>
      obtain ⟨⟨front, back⟩, cutRest, same⟩ := Option.map_eq_some_iff.mp cut
      cases same
      obtain ⟨rfl, room⟩ := inductionHypothesis cutRest
      refine ⟨rfl, ?_⟩
      rw [extent_cons, room]
      omega
  | case4 => cases cut

section Positive

variable (positive : ∀ letter, 0 < width letter)

include positive

/-- A text can be cut between two of its letters. -/
theorem cutAt_append (before after : List β) :
    cutAt width (before ++ after) (extent width before) = some (before, after) := by
  induction before with
  | nil =>
      cases after with
      | nil => rfl
      | cons letter after => rfl
  | cons letter before inductionHypothesis =>
      have room := positive letter
      obtain ⟨offset, offsetEq⟩ : ∃ offset, extent width (letter :: before) = offset + 1 :=
        Nat.exists_eq_add_of_le' (Nat.le_trans room (by simp))
      have remaining : offset + 1 - width letter = extent width before := by
        rw [← offsetEq, extent_cons]
        omega
      rw [offsetEq, List.cons_append, cutAt, if_pos, remaining, inductionHypothesis]
      · rfl
      · rw [← offsetEq, extent_cons]
        exact Nat.le_add_right _ _

end Positive

/-! ## Letters with their offsets -/

theorem indicesFrom_append (offset : Nat) (before after : List β) :
    indicesFrom width offset (before ++ after) =
      indicesFrom width offset before ++
        indicesFrom width (offset + extent width before) after := by
  induction before generalizing offset with
  | nil => rfl
  | cons letter before inductionHypothesis =>
      rw [List.cons_append, indicesFrom, inductionHypothesis, indicesFrom, extent_cons,
        Nat.add_assoc]
      rfl

theorem map_snd_indicesFrom (offset : Nat) (text : List β) :
    (indicesFrom width offset text).map Prod.snd = text := by
  induction text generalizing offset with
  | nil => rfl
  | cons letter text inductionHypothesis =>
      rw [indicesFrom, List.map_cons, inductionHypothesis]

/-- The last letter with its offset. -/
theorem getLast?_indicesFrom (offset : Nat) (before : List β) (letter : β) :
    (indicesFrom width offset (before ++ [letter])).getLast? =
      some (offset + extent width before, letter) := by
  rw [indicesFrom_append]
  exact List.getLast?_concat

/-- A letter behind others, with its offset. -/
theorem getElem?_indicesFrom (offset : Nat) (before : List β) (letter : β) (after : List β) :
    (indicesFrom width offset (before ++ letter :: after))[before.length]? =
      some (offset + extent width before, letter) := by
  have lengths : (indicesFrom width offset before).length = before.length := by
    rw [← List.length_map Prod.snd, map_snd_indicesFrom]
  rw [indicesFrom_append, List.getElem?_append_right (Nat.le_of_eq lengths), lengths, Nat.sub_self]
  rfl

theorem getElem?_indicesFrom_of_length_le {offset count : Nat} {text : List β}
    (short : text.length ≤ count) : (indicesFrom width offset text)[count]? = none := by
  rw [List.getElem?_eq_none_iff, ← List.length_map Prod.snd, map_snd_indicesFrom]
  exact short

/-! ## Searching -/

variable {wanted : β → Bool}

theorem find?_indicesFrom_of_free (offset : Nat) {text : List β}
    (free : ∀ letter ∈ text, wanted letter = false) :
    (indicesFrom width offset text).find? (fun index => wanted index.2) = none := by
  refine List.find?_eq_none.mpr fun index member found => ?_
  have placed : index.2 ∈ text := by
    have back := List.mem_map_of_mem (f := Prod.snd) member
    rwa [map_snd_indicesFrom] at back
  rw [free index.2 placed] at found
  cases found

theorem find?_reverse_indicesFrom_of_free (offset : Nat) {text : List β}
    (free : ∀ letter ∈ text, wanted letter = false) :
    (indicesFrom width offset text).reverse.find? (fun index => wanted index.2) = none := by
  refine List.find?_eq_none.mpr fun index member => ?_
  exact List.find?_eq_none.mp (find?_indicesFrom_of_free offset free) index
    (List.mem_reverse.mp member)

theorem findOffset_of_free {text : List β} (free : ∀ letter ∈ text, wanted letter = false) :
    findOffset width wanted text = none := by
  rw [findOffset, find?_indicesFrom_of_free 0 free]
  rfl

/-- The first wanted letter, with nothing wanted in front of it. -/
theorem findOffset_append_cons {before : List β} (free : ∀ letter ∈ before, wanted letter = false)
    {letter : β} (hit : wanted letter = true) (after : List β) :
    findOffset width wanted (before ++ letter :: after) = some (extent width before) := by
  rw [findOffset, indicesFrom_append, List.find?_append, find?_indicesFrom_of_free 0 free,
    Option.none_or, indicesFrom, Nat.zero_add, List.find?_cons]
  simp only [hit, Option.map_some]

theorem rfindOffset_of_free {text : List β} (free : ∀ letter ∈ text, wanted letter = false) :
    rfindOffset width wanted text = none := by
  rw [rfindOffset, find?_reverse_indicesFrom_of_free 0 free]
  rfl

/-- The last wanted letter, with nothing wanted behind it. -/
theorem rfindOffset_append_cons (before : List β) {letter : β} (hit : wanted letter = true)
    {after : List β} (free : ∀ letter ∈ after, wanted letter = false) :
    rfindOffset width wanted (before ++ letter :: after) = some (extent width before) := by
  rw [rfindOffset, indicesFrom_append, indicesFrom, Nat.zero_add, List.reverse_append,
    List.reverse_cons, List.append_assoc, List.find?_append, find?_reverse_indicesFrom_of_free _ free,
    Option.none_or, List.singleton_append, List.find?_cons]
  simp only [hit, Option.map_some]

end Coding
