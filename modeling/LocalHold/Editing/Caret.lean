import LocalHold.Coding.Separated

/-!
# A text with a caret

A text is held as what is before the caret and what is behind it.  Editing and
moving act at the point between the two, so that no position has to be kept in
range.  Lines end in a newline letter; the caret has a row, the number of
newlines before it, and a column, the number of letters since the last one.
-/

namespace Editing

open Coding

universe u

variable {β : Type u}

/-- A text with a caret in it. -/
structure Caret (β : Type u) where
  before : List β
  after : List β

namespace Caret

/-- The text around the caret. -/
def text (caret : Caret β) : List β :=
  caret.before ++ caret.after

/-- Insert a letter before the caret. -/
def insert (caret : Caret β) (letter : β) : Caret β :=
  ⟨caret.before ++ [letter], caret.after⟩

/-- Remove the letter before the caret, if there is one. -/
def backspace (caret : Caret β) : Caret β :=
  ⟨caret.before.dropLast, caret.after⟩

/-- Remove the letter behind the caret, if there is one. -/
def delete (caret : Caret β) : Caret β :=
  ⟨caret.before, caret.after.tail⟩

/-- Move over the letter before the caret. -/
def left (caret : Caret β) : Caret β :=
  ⟨caret.before.dropLast, caret.before.getLast?.toList ++ caret.after⟩

/-- Move over the letter behind the caret. -/
def right (caret : Caret β) : Caret β :=
  ⟨caret.before ++ caret.after.head?.toList, caret.after.tail⟩

theorem text_left (caret : Caret β) : caret.left.text = caret.text := by
  obtain ⟨before, after⟩ := caret
  induction before using List.reverseRecOn with
  | nil => rfl
  | append_singleton before letter _ => simp [left, text]

theorem text_right (caret : Caret β) : caret.right.text = caret.text := by
  obtain ⟨before, after⟩ := caret
  cases after with
  | nil => simp [right, text]
  | cons letter after => simp [right, text]

theorem backspace_insert (caret : Caret β) (letter : β) :
    (caret.insert letter).backspace = caret := by
  simp [insert, backspace]

/-- Removing what a step to the left went over is removing backwards. -/
theorem delete_left {caret : Caret β} (inside : caret.before ≠ []) :
    caret.left.delete = caret.backspace := by
  obtain ⟨before, after⟩ := caret
  induction before using List.reverseRecOn with
  | nil => exact absurd rfl inside
  | append_singleton before letter _ => simp [left, delete, backspace]

/-! ## Lines -/

section Lines

variable [DecidableEq β] (newline : β)

/-- The lines of a text. -/
def lines (text : List β) : List (List β) :=
  text.splitOn newline

/-- The line of the caret, counted from zero. -/
def row (caret : Caret β) : Nat :=
  caret.before.count newline

/-- The letters of its line in front of the caret. -/
def column (caret : Caret β) : Nat :=
  (splitLast newline caret.before).2.length

/-- Move to the start of the line. -/
def home (caret : Caret β) : Caret β :=
  let (earlier, line) := splitLast newline caret.before
  ⟨earlier, line ++ caret.after⟩

/-- Move to the end of the line. -/
def toLineEnd (caret : Caret β) : Caret β :=
  let (line, later) := splitFirst newline caret.after
  ⟨caret.before ++ line, later⟩

/-- Move to the line above, as near to the column as the line allows. -/
def up (caret : Caret β) : Caret β :=
  let (earlier, line) := splitLast newline caret.before
  if earlier = [] then caret
  else
    let (start, above) := splitLast newline earlier.dropLast
    ⟨start ++ above.take line.length, above.drop line.length ++ newline :: (line ++ caret.after)⟩

/-- Move to the line below, as near to the column as the line allows. -/
def down (caret : Caret β) : Caret β :=
  let (rest, later) := splitFirst newline caret.after
  match later with
  | [] => caret
  | _ :: later =>
      let (below, further) := splitFirst newline later
      ⟨caret.before ++ rest ++ newline :: below.take (caret.column newline),
        below.drop (caret.column newline) ++ further⟩

variable {newline}

section Rows

variable {caret : Caret β}

theorem length_lines (text : List β) : (lines newline text).length = text.count newline + 1 :=
  length_splitOn text

theorem lines_append_cons (earlier later : List β) :
    lines newline (earlier ++ newline :: later) = lines newline earlier ++ lines newline later :=
  List.splitOn_append_cons_self _ _

theorem lines_of_free {text : List β} (free : newline ∉ text) : lines newline text = [text] :=
  List.splitOn_eq_singleton free

/-- The last line of a text has the number of its newlines. -/
theorem getElem?_lines_count (text : List β) :
    (lines newline text)[text.count newline]? = some (splitLast newline text).2 := by
  rcases free_or_last newline text with free | ⟨earlier, line, rfl, free⟩
  · rw [lines_of_free free, List.count_eq_zero_of_not_mem free, splitLast_of_free free]
    rfl
  · rw [lines_append_cons, lines_of_free free, splitLast_append_cons earlier free,
      List.count_append, List.count_cons_self, List.count_eq_zero_of_not_mem free, Nat.zero_add,
      ← length_lines, List.getElem?_concat_length]

/-- The line of a text behind an earlier one is the first line behind the newline. -/
theorem getElem?_lines_append_cons (earlier later : List β) :
    (lines newline (earlier ++ newline :: later))[earlier.count newline + 1]? =
      some (splitFirst newline later).1 := by
  rw [lines_append_cons, ← length_lines, List.getElem?_append_right (Nat.le_refl _), Nat.sub_self]
  rcases free_or_first newline later with free | ⟨line, further, rfl, free⟩
  · rw [lines_of_free free, splitFirst_of_free free]
    rfl
  · rw [lines_append_cons, lines_of_free free, splitFirst_append_cons free]
    rfl

/-! ## Moving by lines -/

theorem text_home : (caret.home newline).text = caret.text := by
  rw [home, splitLast]
  simp only [text]
  rw [← List.append_assoc, List.rdropWhile_append_rtakeWhile]

theorem text_toLineEnd : (caret.toLineEnd newline).text = caret.text := by
  rw [toLineEnd, splitFirst]
  simp only [text]
  rw [List.append_assoc, List.takeWhile_append_dropWhile]

/-- Without a line above the caret stays. -/
theorem up_of_row_zero (first : caret.row newline = 0) : caret.up newline = caret := by
  have free : newline ∉ caret.before := List.count_eq_zero.mp first
  rw [up, splitLast_of_free free]
  exact if_pos rfl

/-- The line above becomes the line of the caret. -/
theorem up_append_cons (earlier : List β) {line : List β} (free : newline ∉ line)
    (after : List β) :
    (Caret.mk (earlier ++ newline :: line) after).up newline =
      ⟨(splitLast newline earlier).1 ++ (splitLast newline earlier).2.take line.length,
        (splitLast newline earlier).2.drop line.length ++ newline :: (line ++ after)⟩ := by
  rw [up, splitLast_append_cons earlier free]
  simp only [List.append_eq_nil_iff, List.cons_ne_nil, and_false, if_false, List.dropLast_concat]

/-- Moving up to a line: the text stays, and the column is kept as far as the
line is long. -/
theorem up_of_line {row : Nat} (below : caret.row newline = row + 1) {line : List β}
    (above : (lines newline caret.text)[row]? = some line) :
    (caret.up newline).text = caret.text ∧ (caret.up newline).row newline = row ∧
      (caret.up newline).column newline = min (caret.column newline) line.length := by
  obtain ⟨before, after⟩ := caret
  rcases free_or_last newline before with free | ⟨earlier, current, rfl, free⟩
  · rw [Caret.row, List.count_eq_zero_of_not_mem free] at below
    cases below
  · have rowEq : earlier.count newline = row := by
      rw [Caret.row, List.count_append, List.count_cons_self,
        List.count_eq_zero_of_not_mem free] at below
      omega
    have lineEq : (splitLast newline earlier).2 = line := by
      rw [text, List.append_assoc, List.cons_append, lines_append_cons, List.getElem?_append_left
        (by rw [length_lines, rowEq]; exact Nat.lt_succ_self row), ← rowEq,
        getElem?_lines_count] at above
      exact Option.some.inj above
    have shortFree : newline ∉ line.take current.length := fun member =>
      not_mem_lastPiece earlier (lineEq ▸ List.mem_of_mem_take member)
    have moved := up_append_cons earlier free after
    rw [lineEq] at moved
    refine ⟨?_, ?_, ?_⟩
    · have whole := append_splitLast newline earlier
      rw [lineEq] at whole
      simp only [moved, text]
      rw [List.append_assoc, ← List.append_assoc (line.take _), List.take_append_drop,
        ← List.append_assoc, whole, List.append_assoc, List.cons_append]
    · rw [moved, Caret.row, List.count_append, List.count_eq_zero_of_not_mem shortFree,
        count_lastStart, rowEq]
      rfl
    · rw [moved, column, splitLast_append earlier shortFree, column,
        splitLast_append_cons earlier free, List.length_take]

/-- The line below becomes the line of the caret. -/
theorem down_append_cons (before : List β) {rest : List β} (free : newline ∉ rest)
    (later : List β) {wanted : Nat}
    (columnEq : (Caret.mk before (rest ++ newline :: later)).column newline = wanted) :
    (Caret.mk before (rest ++ newline :: later)).down newline =
      ⟨before ++ rest ++ newline :: (splitFirst newline later).1.take wanted,
        (splitFirst newline later).1.drop wanted ++ (splitFirst newline later).2⟩ := by
  rw [down, splitFirst_append_cons free]
  simp only [columnEq]

/-- Without a newline behind it the caret stays. -/
theorem down_of_free (free : newline ∉ caret.after) : caret.down newline = caret := by
  rw [down, splitFirst_of_free free]

/-- Without a line below the caret stays. -/
theorem down_of_last (last : (lines newline caret.text)[caret.row newline + 1]? = none) :
    caret.down newline = caret := by
  rcases free_or_first newline caret.after with free | ⟨rest, later, split, _⟩
  · exact down_of_free free
  · refine absurd last ?_
    rw [text, split, ← List.append_assoc, List.getElem?_eq_none_iff, length_lines,
      List.count_append, List.count_append, List.count_cons_self, Caret.row]
    omega

/-- Moving down to a line: the text stays, and the column is kept as far as the
line is long. -/
theorem down_of_line {line : List β}
    (below : (lines newline caret.text)[caret.row newline + 1]? = some line) :
    (caret.down newline).text = caret.text ∧
      (caret.down newline).row newline = caret.row newline + 1 ∧
      (caret.down newline).column newline = min (caret.column newline) line.length := by
  obtain ⟨before, after⟩ := caret
  rcases free_or_first newline after with free | ⟨rest, later, rfl, free⟩
  · have short := (List.getElem?_eq_some_iff.mp below).1
    rw [length_lines, text, List.count_append, List.count_eq_zero_of_not_mem free] at short
    exact absurd short (Nat.lt_irrefl _)
  · have rowEq : before.count newline = (before ++ rest).count newline := by
      rw [List.count_append, List.count_eq_zero_of_not_mem free]
      rfl
    have lineEq : (splitFirst newline later).1 = line := by
      rw [text, Caret.row, ← List.append_assoc, rowEq, getElem?_lines_append_cons] at below
      exact Option.some.inj below
    have whole : line ++ (splitFirst newline later).2 = later := by
      rw [← lineEq]
      exact append_splitFirst newline later
    generalize columnEq : (Caret.mk before (rest ++ newline :: later)).column newline = wanted
    have shortFree : newline ∉ line.take wanted := fun member =>
      not_mem_firstPiece later (lineEq ▸ List.mem_of_mem_take member)
    have moved := down_append_cons before free later columnEq
    rw [lineEq] at moved
    refine ⟨?_, ?_, ?_⟩
    · simp only [moved, text]
      rw [List.append_assoc, List.cons_append, ← List.append_assoc (line.take _),
        List.take_append_drop, whole, List.append_assoc]
    · rw [moved, Caret.row, List.count_append, List.count_cons_self,
        List.count_eq_zero_of_not_mem shortFree, ← rowEq]
      rfl
    · rw [moved, column, splitLast_append_cons _ shortFree, List.length_take]

end Rows

end Lines

end Caret

end Editing
