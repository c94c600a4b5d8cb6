import LocalHold.Coding.Offsets
import LocalHold.MachineIntegers
import Mathlib.Data.List.Basic

/-!
# Strings as bytes

A string is addressed by byte offsets.  A slice, an insertion or a removal at
an offset inside a character, or behind the end, stops the program; so does an
insertion into a string that may not grow further.
-/

namespace LocalHold

open Coding

/-- `isize::MAX`, the most bytes that a string holds. -/
def isizeMax : Nat :=
  i64Range - 1

/-- How an operation on a string stops the program. -/
inductive Panic where
  | outOfBounds
  | capacityOverflow
deriving DecidableEq, Repr

/-- A `String`: its bytes fit into an allocation. -/
structure OwnedText where
  text : String
  fits : text.utf8ByteSize ≤ isizeMax
deriving DecidableEq

/-- `str::char_indices`. -/
def charIndices (text : String) : List (Nat × Char) :=
  indicesFrom Char.utf8Size 0 text.toList

/-- `str::find` of a character. -/
def findChar (text : String) (character : Char) : Option Nat :=
  findOffset Char.utf8Size (fun letter => letter == character) text.toList

/-- `str::rfind` of a character. -/
def rfindChar (text : String) (character : Char) : Option Nat :=
  rfindOffset Char.utf8Size (fun letter => letter == character) text.toList

/-- Both sides of a byte offset. -/
def splitText (text : String) (offset : Nat) : Except Panic (String × String) :=
  match cutAt Char.utf8Size text.toList offset with
  | none => .error .outOfBounds
  | some (before, after) => .ok (String.ofList before, String.ofList after)

/-- `&text[..stop]`. -/
def sliceTo (text : String) (stop : Nat) : Except Panic String :=
  (splitText text stop).map Prod.fst

/-- `&text[start..]`. -/
def sliceFrom (text : String) (start : Nat) : Except Panic String :=
  (splitText text start).map Prod.snd

/-- `&text[start..stop]`. -/
def slice (text : String) (start stop : Nat) : Except Panic String := do
  let front ← sliceTo text stop
  sliceFrom front start

theorem saturatingAdd_of_fits {left right : Nat} (fits : left + right ≤ isizeMax) :
    saturatingAdd left right = left + right :=
  Nat.min_eq_left (Nat.le_trans fits (by decide))

theorem utf8ByteSize_eq_extent (text : String) :
    text.utf8ByteSize = extent Char.utf8Size text.toList := by
  obtain ⟨letters, rfl⟩ : ∃ letters, text = String.ofList letters :=
    ⟨text.toList, String.ofList_toList.symm⟩
  rw [String.toList_ofList]
  induction letters with
  | nil => rfl
  | cons letter letters inductionHypothesis =>
      have split : String.ofList (letter :: letters) =
          String.singleton letter ++ String.ofList letters := by
        rw [String.singleton_eq_ofList, ← String.ofList_append]
        rfl
      rw [split, String.utf8ByteSize_append, String.utf8ByteSize_singleton, inductionHypothesis,
        extent_cons]

/-- `String::insert`. -/
def OwnedText.insert (value : OwnedText) (index : Nat) (character : Char) :
    Except Panic OwnedText := do
  let (before, after) ← splitText value.text index
  let text := before ++ String.singleton character ++ after
  if fits : text.utf8ByteSize ≤ isizeMax then .ok ⟨text, fits⟩
  else .error .capacityOverflow

/-- Removing a piece makes a string no longer. -/
theorem OwnedText.fits_without (value : OwnedText) {before piece after : List Char}
    (parts : value.text.toList = before ++ piece ++ after) :
    (String.ofList (before ++ after)).utf8ByteSize ≤ isizeMax := by
  refine Nat.le_trans ?_ value.fits
  rw [utf8ByteSize_eq_extent, utf8ByteSize_eq_extent, String.toList_ofList, parts]
  simp only [extent_append]
  omega

/-- `String::drain` of `start..stop`, with the removed characters dropped. -/
def OwnedText.drain (value : OwnedText) (start stop : Nat) : Except Panic OwnedText :=
  match cut : cutAt Char.utf8Size value.text.toList stop with
  | none => .error .outOfBounds
  | some (front, after) =>
      match cutFront : cutAt Char.utf8Size front start with
      | none => .error .outOfBounds
      | some (before, _) => .ok ⟨String.ofList (before ++ after), value.fits_without (by
          rw [← (of_cutAt cutFront).1]
          exact (of_cutAt cut).1)⟩

/-! ## Between characters -/

section Between

variable {text : String} {before piece after : List Char}

theorem splitText_of_append (parts : text.toList = before ++ after) :
    splitText text (extent Char.utf8Size before) =
      .ok (String.ofList before, String.ofList after) := by
  rw [splitText, parts, cutAt_append Char.utf8Size_pos]

theorem sliceTo_of_append (parts : text.toList = before ++ after) :
    sliceTo text (extent Char.utf8Size before) = .ok (String.ofList before) := by
  rw [sliceTo, splitText_of_append parts]
  rfl

theorem sliceFrom_of_append (parts : text.toList = before ++ after) :
    sliceFrom text (extent Char.utf8Size before) = .ok (String.ofList after) := by
  rw [sliceFrom, splitText_of_append parts]
  rfl

theorem slice_of_append (parts : text.toList = before ++ piece ++ after) :
    slice text (extent Char.utf8Size before) (extent Char.utf8Size (before ++ piece)) =
      .ok (String.ofList piece) := by
  rw [slice, sliceTo_of_append parts]
  exact sliceFrom_of_append (String.toList_ofList)

variable {value : OwnedText}

theorem OwnedText.extent_le (parts : value.text.toList = before ++ after) :
    extent Char.utf8Size before ≤ isizeMax := by
  refine Nat.le_trans (extent_le_of_append parts) ?_
  rw [← utf8ByteSize_eq_extent]
  exact value.fits

/-- An insertion between two characters succeeds unless the string is full. -/
theorem OwnedText.insert_of_append (parts : value.text.toList = before ++ after)
    (character : Char) :
    (∃ next, value.insert (extent Char.utf8Size before) character = .ok next ∧
      next.text.toList = before ++ [character] ++ after) ∨
      value.insert (extent Char.utf8Size before) character = .error .capacityOverflow := by
  rw [OwnedText.insert, splitText_of_append parts]
  by_cases fits : (String.ofList before ++ String.singleton character ++
      String.ofList after).utf8ByteSize ≤ isizeMax
  · refine .inl ⟨⟨_, fits⟩, dif_pos fits, ?_⟩
    simp only [String.toList_append, String.toList_ofList, String.toList_singleton]
  · exact .inr (dif_neg fits)

/-- There is room for a character while the string stays within its bound. -/
theorem OwnedText.insert_of_fits (parts : value.text.toList = before ++ after)
    {character : Char} (fits : value.text.utf8ByteSize + character.utf8Size ≤ isizeMax) :
    value.insert (extent Char.utf8Size before) character ≠ .error .capacityOverflow := by
  rw [OwnedText.insert, splitText_of_append parts]
  have room : (String.ofList before ++ String.singleton character ++
      String.ofList after).utf8ByteSize ≤ isizeMax := by
    rw [utf8ByteSize_eq_extent, parts, extent_append] at fits
    rw [String.utf8ByteSize_append, String.utf8ByteSize_append, String.utf8ByteSize_singleton,
      utf8ByteSize_eq_extent, utf8ByteSize_eq_extent, String.toList_ofList, String.toList_ofList]
    omega
  exact fun full => nomatch (dif_pos room).symm.trans full

theorem OwnedText.drain_of_append (parts : value.text.toList = before ++ piece ++ after) :
    ∃ next, value.drain (extent Char.utf8Size before) (extent Char.utf8Size (before ++ piece)) =
      .ok next ∧ next.text.toList = before ++ after := by
  refine ⟨⟨String.ofList (before ++ after), value.fits_without parts⟩, ?_, String.toList_ofList⟩
  rw [OwnedText.drain]
  split
  · next cut =>
      rw [parts, cutAt_append Char.utf8Size_pos] at cut
      cases cut
  · next front rest cut =>
      rw [parts, cutAt_append Char.utf8Size_pos] at cut
      cases cut
      split
      · next cutFront =>
          rw [cutAt_append Char.utf8Size_pos] at cutFront
          cases cutFront
      · next cutFront =>
          rw [cutAt_append Char.utf8Size_pos] at cutFront
          cases cutFront
          rfl

end Between

end LocalHold
