import LocalHold.Editing.Caret
import LocalHold.Transition.Checked
import LocalHold.Utf8

/-!
# The text input of the editor

The editor keeps a draft as a string and a byte offset into it.  Every
operation slices the string at that offset.  An input whose offset lies between
two characters shows a text with a caret; each operation acts on what it shows
as an edit at the caret or a movement of it, and none stops the program but an
insertion into a full string.
-/

namespace LocalHold

open Coding Editing

/-- `TextInput`. -/
structure TextInput where
  value : OwnedText
  cursor : Nat
deriving DecidableEq

/-- `TextInput::new`. -/
def TextInput.new (value : OwnedText) : TextInput :=
  ⟨value, value.text.utf8ByteSize⟩

/-- `text.rfind('\n').map_or(0, |index| index.saturating_add(1))`. -/
def afterLastNewline (text : String) : Nat :=
  match rfindChar text '\n' with
  | none => 0
  | some index => saturatingAdd index 1

/-- `value[start..].find('\n').map_or(value.len(), |offset| start.saturating_add(offset))`,
on the slice `after` from `start` on. -/
def beforeNextNewline (value : String) (start : Nat) (after : String) : Nat :=
  match findChar after '\n' with
  | none => value.utf8ByteSize
  | some offset => saturatingAdd start offset

/-- `byte_at_char_column`. -/
def byteAtCharColumn (value : String) (start stop column : Nat) : Except Panic Nat := do
  let line ← slice value start stop
  match (charIndices line)[column]? with
  | none => .ok stop
  | some (offset, _) => .ok (saturatingAdd start offset)

/-- `TextInput::previous_boundary`. -/
def TextInput.previousBoundary (input : TextInput) : Except Panic Nat := do
  let before ← sliceTo input.value.text input.cursor
  match (charIndices before).getLast? with
  | none => .ok 0
  | some (index, _) => .ok index

/-- `TextInput::next_boundary`. -/
def TextInput.nextBoundary (input : TextInput) : Except Panic Nat := do
  let after ← sliceFrom input.value.text input.cursor
  match (charIndices after)[1]? with
  | none => .ok input.value.text.utf8ByteSize
  | some (offset, _) => .ok (saturatingAdd input.cursor offset)

/-- `TextInput::insert`. -/
def TextInput.insert (input : TextInput) (character : Char) : Except Panic TextInput := do
  let value ← input.value.insert input.cursor character
  .ok ⟨value, saturatingAdd input.cursor character.utf8Size⟩

/-- `TextInput::backspace`. -/
def TextInput.backspace (input : TextInput) : Except Panic TextInput := do
  let previous ← input.previousBoundary
  if previous < input.cursor then
    let value ← input.value.drain previous input.cursor
    .ok ⟨value, previous⟩
  else .ok input

/-- `TextInput::delete`. -/
def TextInput.delete (input : TextInput) : Except Panic TextInput := do
  let next ← input.nextBoundary
  if input.cursor < next then
    let value ← input.value.drain input.cursor next
    .ok { input with value }
  else .ok input

/-- `TextInput::left`. -/
def TextInput.left (input : TextInput) : Except Panic TextInput := do
  let cursor ← input.previousBoundary
  .ok { input with cursor }

/-- `TextInput::right`. -/
def TextInput.right (input : TextInput) : Except Panic TextInput := do
  let cursor ← input.nextBoundary
  .ok { input with cursor }

/-- `TextInput::home`. -/
def TextInput.home (input : TextInput) : Except Panic TextInput := do
  let before ← sliceTo input.value.text input.cursor
  .ok { input with cursor := afterLastNewline before }

/-- `TextInput::end`. -/
def TextInput.toEnd (input : TextInput) : Except Panic TextInput := do
  let after ← sliceFrom input.value.text input.cursor
  .ok { input with cursor := beforeNextNewline input.value.text input.cursor after }

/-- `TextInput::up`. -/
def TextInput.up (input : TextInput) : Except Panic TextInput := do
  let before ← sliceTo input.value.text input.cursor
  let lineStart := afterLastNewline before
  if lineStart = 0 then .ok input
  else
    let line ← slice input.value.text lineStart input.cursor
    let previousEnd := lineStart - 1
    let earlier ← sliceTo input.value.text previousEnd
    let cursor ← byteAtCharColumn input.value.text (afterLastNewline earlier) previousEnd
      line.length
    .ok { input with cursor }

/-- `TextInput::down`. -/
def TextInput.down (input : TextInput) : Except Panic TextInput := do
  let before ← sliceTo input.value.text input.cursor
  let line ← slice input.value.text (afterLastNewline before) input.cursor
  let after ← sliceFrom input.value.text input.cursor
  match findChar after '\n' with
  | none => .ok input
  | some newlineOffset =>
      let nextStart := saturatingAdd (saturatingAdd input.cursor newlineOffset) 1
      let further ← sliceFrom input.value.text nextStart
      let nextEnd := beforeNextNewline input.value.text nextStart further
      let cursor ← byteAtCharColumn input.value.text nextStart nextEnd line.length
      .ok { input with cursor }

/-- What the editor does to a text input. -/
inductive Keystroke where
  | insert (character : Char)
  | backspace
  | delete
  | left
  | right
  | home
  | toEnd
  | up
  | down
deriving DecidableEq, Repr

/-- Whether a keystroke only moves the cursor. -/
def Keystroke.moves : Keystroke → Bool
  | .insert _ | .backspace | .delete => false
  | .left | .right | .home | .toEnd | .up | .down => true

/-- The bytes that a keystroke inserts. -/
def Keystroke.inserted : Keystroke → Nat
  | .insert character => character.utf8Size
  | .backspace | .delete | .left | .right | .home | .toEnd | .up | .down => 0

/-- One keystroke. -/
def TextInput.press (input : TextInput) : Keystroke → Except Panic TextInput
  | .insert character => input.insert character
  | .backspace => input.backspace
  | .delete => input.delete
  | .left => input.left
  | .right => input.right
  | .home => input.home
  | .toEnd => input.toEnd
  | .up => input.up
  | .down => input.down

/-- Keystrokes one after the other. -/
def TextInput.type (input : TextInput) (keystrokes : List Keystroke) : Except Panic TextInput :=
  keystrokes.foldlM TextInput.press input

/-- The edit or the movement that a keystroke stands for. -/
def Keystroke.act (caret : Caret Char) : Keystroke → Caret Char
  | .insert character => caret.insert character
  | .backspace => caret.backspace
  | .delete => caret.delete
  | .left => caret.left
  | .right => caret.right
  | .home => caret.home '\n'
  | .toEnd => caret.toLineEnd '\n'
  | .up => caret.up '\n'
  | .down => caret.down '\n'

/-- The cursor lies between two characters: the string and the caret in it. -/
structure TextInput.Shows (input : TextInput) (caret : Caret Char) : Prop where
  value : input.value.text.toList = caret.text
  cursor : input.cursor = extent Char.utf8Size caret.before

namespace TextInput

open Transition.Checked (bind_eq_ok)

/-! ## Offsets between characters -/

section Offsets

variable {value : OwnedText} {text : String} {before line after : List Char}

theorem isNewline_of_free {letters : List Char} (free : '\n' ∉ letters) :
    ∀ letter ∈ letters, (letter == '\n') = false := by
  intro letter placed
  refine beq_false_of_ne ?_
  rintro rfl
  exact free placed

/-- Behind the last newline starts the last line. -/
theorem afterLastNewline_of_append (parts : value.text.toList = before ++ after) :
    afterLastNewline (String.ofList before) =
      extent Char.utf8Size (splitLast '\n' before).1 := by
  rw [afterLastNewline, rfindChar, String.toList_ofList]
  rcases free_or_last '\n' before with free | ⟨earlier, last, rfl, free⟩
  · rw [splitLast_of_free free, rfindOffset_of_free (isNewline_of_free free)]
    rfl
  · rw [splitLast_append_cons earlier free,
      @rfindOffset_append_cons _ _ (fun letter => letter == '\n') earlier '\n' rfl _
        (isNewline_of_free free)]
    have fits := OwnedText.extent_le parts
    have newlineSize : Char.utf8Size '\n' = 1 := rfl
    rw [extent_append, extent_cons, newlineSize] at fits
    rw [extent_append, extent_cons, extent_nil, newlineSize]
    exact saturatingAdd_of_fits (by omega)

/-- The first newline, or the end, ends the first line. -/
theorem findChar_newline (after : List Char) :
    findChar (String.ofList after) '\n' =
      if (splitFirst '\n' after).2 = [] then none
      else some (extent Char.utf8Size (splitFirst '\n' after).1) := by
  rw [findChar, String.toList_ofList]
  rcases free_or_first '\n' after with free | ⟨line, later, rfl, free⟩
  · rw [splitFirst_of_free free, findOffset_of_free (isNewline_of_free free)]
    rfl
  · rw [splitFirst_append_cons free,
      @findOffset_append_cons _ _ (fun letter => letter == '\n') _ (isNewline_of_free free) '\n' rfl,
      if_neg (List.cons_ne_nil _ _)]

/-- In front of the next newline ends the first line. -/
theorem beforeNextNewline_of_append (parts : value.text.toList = before ++ after) :
    beforeNextNewline value.text (extent Char.utf8Size before) (String.ofList after) =
      extent Char.utf8Size (before ++ (splitFirst '\n' after).1) := by
  have whole := append_splitFirst '\n' after
  rw [beforeNextNewline, findChar_newline]
  by_cases last : (splitFirst '\n' after).2 = []
  · rw [last, List.append_nil] at whole
    rw [if_pos last, whole, ← parts]
    exact utf8ByteSize_eq_extent value.text
  · rw [if_neg last, extent_append]
    refine saturatingAdd_of_fits ?_
    rw [← extent_append]
    have split : value.text.toList =
        (before ++ (splitFirst '\n' after).1) ++ (splitFirst '\n' after).2 := by
      rw [List.append_assoc, whole]
      exact parts
    exact value.extent_le split

/-- The offset of a column of a line, or the end of a shorter line. -/
theorem byteAtCharColumn_of_append (parts : value.text.toList = before ++ line ++ after)
    (column : Nat) :
    byteAtCharColumn value.text (extent Char.utf8Size before)
        (extent Char.utf8Size (before ++ line)) column =
      .ok (extent Char.utf8Size (before ++ line.take column)) := by
  refine bind_eq_ok.mpr ⟨_, slice_of_append parts, ?_⟩
  rw [charIndices, String.toList_ofList]
  by_cases short : line.length ≤ column
  · rw [getElem?_indicesFrom_of_length_le short, List.take_of_length_le short]
  · obtain ⟨letter, rest, dropped⟩ :=
      List.exists_cons_of_ne_nil (mt List.drop_eq_nil_iff.mp short)
    have lineEq : line = line.take column ++ letter :: rest := by
      rw [← dropped, List.take_append_drop]
    have taken : (line.take column).length = column := List.length_take_of_le (by omega)
    have placed := @getElem?_indicesFrom _ Char.utf8Size 0 (line.take column) letter rest
    rw [taken, ← lineEq] at placed
    have fits : extent Char.utf8Size (before ++ line.take column) ≤ isizeMax := by
      have split : value.text.toList =
          (before ++ line.take column) ++ (letter :: rest ++ after) := by
        rw [parts]
        conv_lhs => rw [lineEq]
        simp only [List.append_assoc]
      exact value.extent_le split
    rw [extent_append] at fits
    rw [placed, extent_append before (line.take column), ← saturatingAdd_of_fits fits,
      Nat.zero_add]

end Offsets

/-! ## What the operations do to the caret -/

section Refinement

variable {input : TextInput} {caret : Caret Char}

theorem ext_of_shows {left right : TextInput} (leftShows : left.Shows caret)
    (rightShows : right.Shows caret) : left = right := by
  obtain ⟨⟨leftText, leftFits⟩, leftCursor⟩ := left
  obtain ⟨⟨rightText, rightFits⟩, rightCursor⟩ := right
  have texts : leftText = rightText :=
    String.toList_injective (leftShows.value.trans rightShows.value.symm)
  have cursors : leftCursor = rightCursor := leftShows.cursor.trans rightShows.cursor.symm
  subst texts cursors
  rfl

theorem shows_new (value : OwnedText) : (new value).Shows ⟨value.text.toList, []⟩ :=
  ⟨(List.append_nil _).symm, utf8ByteSize_eq_extent value.text⟩

/-- An input with the same string shows a caret elsewhere in the text. -/
theorem Shows.moveTo (shows : input.Shows caret) (target : Caret Char)
    (same : target.text = caret.text) {cursor : Nat}
    (placed : cursor = extent Char.utf8Size target.before) :
    ({ input with cursor } : TextInput).Shows target :=
  ⟨shows.value.trans same.symm, placed⟩

section Boundaries

variable (shows : input.Shows caret)

include shows

theorem Shows.sliceTo_cursor :
    sliceTo input.value.text input.cursor = .ok (String.ofList caret.before) := by
  rw [shows.cursor]
  exact sliceTo_of_append shows.value

theorem Shows.sliceFrom_cursor :
    sliceFrom input.value.text input.cursor = .ok (String.ofList caret.after) := by
  rw [shows.cursor]
  exact sliceFrom_of_append shows.value

theorem Shows.length_eq : input.value.text.utf8ByteSize =
    extent Char.utf8Size (caret.before ++ caret.after) := by
  rw [utf8ByteSize_eq_extent, shows.value]
  rfl

theorem Shows.previousBoundary_eq :
    input.previousBoundary = .ok (extent Char.utf8Size caret.before.dropLast) := by
  refine bind_eq_ok.mpr ⟨_, shows.sliceTo_cursor, ?_⟩
  rw [charIndices, String.toList_ofList]
  rcases List.eq_nil_or_concat caret.before with empty | ⟨front, letter, split⟩
  · rw [empty]
    rfl
  · rw [split, List.concat_eq_append, getLast?_indicesFrom, List.dropLast_concat, Nat.zero_add]

theorem Shows.nextBoundary_eq :
    input.nextBoundary =
      .ok (extent Char.utf8Size (caret.before ++ caret.after.head?.toList)) := by
  refine bind_eq_ok.mpr ⟨_, shows.sliceFrom_cursor, ?_⟩
  have size := shows.length_eq
  have fits := input.value.fits
  rw [charIndices, String.toList_ofList]
  cases afterEq : caret.after with
  | nil =>
      rw [afterEq] at size
      exact congrArg Except.ok size
  | cons letter rest =>
      rw [afterEq] at size
      cases rest with
      | nil => exact congrArg Except.ok size
      | cons second rest =>
          rw [size, extent_append, extent_cons] at fits
          have added : saturatingAdd input.cursor (0 + letter.utf8Size) =
              extent Char.utf8Size caret.before + letter.utf8Size := by
            rw [shows.cursor, Nat.zero_add]
            exact saturatingAdd_of_fits (by omega)
          rw [extent_append]
          exact congrArg Except.ok added

theorem Shows.insert_eq (character : Char) :
    (∃ next, input.insert character = .ok next ∧ next.Shows (caret.insert character)) ∨
      input.insert character = .error .capacityOverflow := by
  rw [TextInput.insert, shows.cursor]
  rcases OwnedText.insert_of_append shows.value character with
    ⟨value, inserted, letters⟩ | full
  · refine .inl ⟨_, bind_eq_ok.mpr ⟨value, inserted, rfl⟩, letters, ?_⟩
    have fits := OwnedText.extent_le letters
    rw [extent_append] at fits
    exact (saturatingAdd_of_fits fits).trans (extent_append _ _).symm
  · rw [full]
    exact .inr rfl

theorem Shows.backspace_eq :
    ∃ next, input.backspace = .ok next ∧ next.Shows caret.backspace := by
  rw [TextInput.backspace, shows.previousBoundary_eq]
  rcases List.eq_nil_or_concat caret.before with empty | ⟨front, letter, split⟩
  · have stays : ¬ extent Char.utf8Size caret.before.dropLast < input.cursor := by
      rw [shows.cursor, empty]
      exact Nat.lt_irrefl _
    refine ⟨input, if_neg stays, shows.value.trans ?_, shows.cursor.trans ?_⟩
    · rw [Caret.backspace, Caret.text, Caret.text, empty]
      rfl
    · rw [Caret.backspace, empty]
      rfl
  · rw [List.concat_eq_append] at split
    have shorter : extent Char.utf8Size caret.before.dropLast < input.cursor := by
      rw [shows.cursor, split, List.dropLast_concat, extent_append]
      exact Nat.lt_add_of_pos_right (Nat.lt_of_lt_of_le letter.utf8Size_pos (Nat.le_add_right _ _))
    have parts : input.value.text.toList = front ++ [letter] ++ caret.after := by
      rw [← split]
      exact shows.value
    obtain ⟨value, drained, letters⟩ := OwnedText.drain_of_append parts
    rw [← split, ← shows.cursor] at drained
    refine ⟨⟨value, extent Char.utf8Size caret.before.dropLast⟩, (if_pos shorter).trans ?_, ?_, rfl⟩
    · rw [split, List.dropLast_concat, drained]
      rfl
    · rw [Caret.backspace, Caret.text, split, List.dropLast_concat]
      exact letters

theorem Shows.delete_eq : ∃ next, input.delete = .ok next ∧ next.Shows caret.delete := by
  rw [TextInput.delete, shows.nextBoundary_eq]
  cases afterEq : caret.after with
  | nil =>
      have stays : ¬ input.cursor < extent Char.utf8Size (caret.before ++ []) := by
        rw [List.append_nil, shows.cursor]
        exact Nat.lt_irrefl _
      refine ⟨input, if_neg stays, shows.value.trans ?_, shows.cursor⟩
      rw [Caret.delete, Caret.text, Caret.text, afterEq]
      rfl
  | cons letter rest =>
      have longer : input.cursor < extent Char.utf8Size (caret.before ++ [letter]) := by
        rw [shows.cursor, extent_append]
        exact Nat.lt_add_of_pos_right
          (Nat.lt_of_lt_of_le letter.utf8Size_pos (Nat.le_add_right _ _))
      have parts : input.value.text.toList = caret.before ++ [letter] ++ rest := by
        rw [List.append_assoc, List.singleton_append, ← afterEq]
        exact shows.value
      obtain ⟨value, drained, letters⟩ := OwnedText.drain_of_append parts
      rw [← shows.cursor] at drained
      refine ⟨{ input with value }, (if_pos longer).trans ?_, ?_, shows.cursor⟩
      · exact bind_eq_ok.mpr ⟨value, drained, rfl⟩
      · rw [Caret.delete, Caret.text, afterEq]
        exact letters

theorem Shows.left_eq : ∃ next, input.left = .ok next ∧ next.value = input.value ∧
    next.Shows caret.left :=
  ⟨_, bind_eq_ok.mpr ⟨_, shows.previousBoundary_eq, rfl⟩, rfl,
    shows.moveTo _ caret.text_left rfl⟩

theorem Shows.right_eq : ∃ next, input.right = .ok next ∧ next.value = input.value ∧
    next.Shows caret.right :=
  ⟨_, bind_eq_ok.mpr ⟨_, shows.nextBoundary_eq, rfl⟩, rfl,
    shows.moveTo _ caret.text_right rfl⟩

theorem Shows.home_eq : ∃ next, input.home = .ok next ∧ next.value = input.value ∧
    next.Shows (caret.home '\n') :=
  ⟨_, bind_eq_ok.mpr ⟨_, shows.sliceTo_cursor, rfl⟩, rfl,
    shows.moveTo _ Caret.text_home (afterLastNewline_of_append shows.value)⟩

theorem Shows.toEnd_eq : ∃ next, input.toEnd = .ok next ∧ next.value = input.value ∧
    next.Shows (caret.toLineEnd '\n') := by
  refine ⟨_, bind_eq_ok.mpr ⟨_, shows.sliceFrom_cursor, rfl⟩, rfl,
    shows.moveTo _ Caret.text_toLineEnd ?_⟩
  rw [shows.cursor]
  exact beforeNextNewline_of_append shows.value

theorem Shows.up_eq : ∃ next, input.up = .ok next ∧ next.value = input.value ∧
    next.Shows (caret.up '\n') := by
  obtain ⟨before, after⟩ := caret
  have startEq := afterLastNewline_of_append shows.value
  rcases free_or_last '\n' before with free | ⟨earlier, line, rfl, free⟩
  · rw [splitLast_of_free free] at startEq
    refine ⟨input, bind_eq_ok.mpr ⟨_, shows.sliceTo_cursor, if_pos startEq⟩, rfl, ?_⟩
    rw [Caret.up_of_row_zero (List.count_eq_zero.mpr free)]
    exact shows
  · rw [splitLast_append_cons earlier free] at startEq
    have above := append_splitLast '\n' earlier
    have endEq : extent Char.utf8Size (earlier ++ ['\n']) - 1 = extent Char.utf8Size earlier := by
      rw [extent_append]
      rfl
    have inside : ¬ afterLastNewline (String.ofList (earlier ++ '\n' :: line)) = 0 := by
      rw [startEq, extent_append]
      exact Nat.succ_ne_zero _
    have lineParts : input.value.text.toList = earlier ++ ['\n'] ++ line ++ after := by
      rw [shows.value, Caret.text]
      simp only [List.append_assoc, List.singleton_append]
    have earlierParts : input.value.text.toList = earlier ++ '\n' :: (line ++ after) := by
      rw [shows.value, Caret.text, List.append_assoc, List.cons_append]
    have aboveParts : input.value.text.toList =
        (splitLast '\n' earlier).1 ++ (splitLast '\n' earlier).2 ++
          '\n' :: (line ++ after) := by
      rw [above]
      exact earlierParts
    have lineEq : slice input.value.text (extent Char.utf8Size (earlier ++ ['\n']))
        input.cursor = .ok (String.ofList line) := by
      rw [shows.cursor, List.append_cons earlier '\n' line]
      exact slice_of_append lineParts
    have cursorEq := byteAtCharColumn_of_append aboveParts line.length
    rw [above] at cursorEq
    have ran : input.up = .ok ⟨input.value,
        extent Char.utf8Size ((splitLast '\n' earlier).1 ++
          (splitLast '\n' earlier).2.take line.length)⟩ := by
      refine bind_eq_ok.mpr ⟨_, shows.sliceTo_cursor, (if_neg inside).trans ?_⟩
      refine bind_eq_ok.mpr ⟨String.ofList line, by rw [startEq]; exact lineEq, ?_⟩
      dsimp only
      rw [startEq, endEq]
      refine bind_eq_ok.mpr ⟨_, sliceTo_of_append earlierParts, ?_⟩
      rw [afterLastNewline_of_append earlierParts, String.length_ofList, cursorEq]
      rfl
    have moved := Caret.up_append_cons earlier free after
    refine ⟨_, ran, rfl, shows.moveTo ((Caret.mk _ after).up '\n') ?_ ?_⟩
    · rw [moved, Caret.text, Caret.text, List.append_assoc, ← List.append_assoc (List.take _ _),
        List.take_append_drop, ← List.append_assoc, above, List.append_assoc, List.cons_append]
    · rw [moved]

theorem Shows.down_eq : ∃ next, input.down = .ok next ∧ next.value = input.value ∧
    next.Shows (caret.down '\n') := by
  obtain ⟨before, after⟩ := caret
  have current := append_splitLast '\n' before
  have lineEq : slice input.value.text (afterLastNewline (String.ofList before)) input.cursor =
      .ok (String.ofList (splitLast '\n' before).2) := by
    have parts : input.value.text.toList =
        (splitLast '\n' before).1 ++ (splitLast '\n' before).2 ++ after := by
      rw [current]
      exact shows.value
    rw [afterLastNewline_of_append shows.value, shows.cursor]
    have sliced := slice_of_append parts
    rwa [current] at sliced
  rcases free_or_first '\n' after with free | ⟨rest, later, rfl, free⟩
  · have ran : input.down = .ok input := by
      refine bind_eq_ok.mpr ⟨_, shows.sliceTo_cursor, bind_eq_ok.mpr ⟨_, lineEq,
        bind_eq_ok.mpr ⟨_, shows.sliceFrom_cursor, ?_⟩⟩⟩
      rw [findChar_newline, splitFirst_of_free free]
      rfl
    refine ⟨input, ran, rfl, ?_⟩
    rw [Caret.down_of_free free]
    exact shows
  · have below := append_splitFirst '\n' later
    have laterParts : input.value.text.toList = before ++ rest ++ ['\n'] ++ later := by
      rw [shows.value, Caret.text]
      simp only [List.append_assoc, List.singleton_append]
    have belowParts : input.value.text.toList = before ++ rest ++ ['\n'] ++
        (splitFirst '\n' later).1 ++ (splitFirst '\n' later).2 := by
      rw [List.append_assoc _ (splitFirst '\n' later).1, below]
      exact laterParts
    have startEq : saturatingAdd (saturatingAdd input.cursor (extent Char.utf8Size rest)) 1 =
        extent Char.utf8Size (before ++ rest ++ ['\n']) := by
      have fits := OwnedText.extent_le laterParts
      have newlineSize : Char.utf8Size '\n' = 1 := rfl
      have cursorAt : input.cursor = extent Char.utf8Size before := shows.cursor
      simp only [extent_append, extent_cons, extent_nil, newlineSize] at fits ⊢
      have inner : saturatingAdd (extent Char.utf8Size before) (extent Char.utf8Size rest) =
          extent Char.utf8Size before + extent Char.utf8Size rest :=
        saturatingAdd_of_fits (by omega)
      rw [cursorAt, inner, saturatingAdd_of_fits (by omega)]
    have cursorEq := byteAtCharColumn_of_append belowParts
      (splitLast '\n' before).2.length
    have ran : input.down = .ok ⟨input.value,
        extent Char.utf8Size (before ++ rest ++ ['\n'] ++ (splitFirst '\n' later).1.take
          (splitLast '\n' before).2.length)⟩ := by
      refine bind_eq_ok.mpr ⟨_, shows.sliceTo_cursor, bind_eq_ok.mpr ⟨_, lineEq,
        bind_eq_ok.mpr ⟨_, shows.sliceFrom_cursor, ?_⟩⟩⟩
      rw [findChar_newline, splitFirst_append_cons free, if_neg (List.cons_ne_nil _ _)]
      dsimp only
      rw [startEq]
      refine bind_eq_ok.mpr ⟨_, sliceFrom_of_append laterParts, ?_⟩
      rw [beforeNextNewline_of_append laterParts, String.length_ofList, cursorEq]
      rfl
    have moved := Caret.down_append_cons before free later rfl
    refine ⟨_, ran, rfl, shows.moveTo ((Caret.mk before _).down '\n') ?_ ?_⟩
    · rw [moved, Caret.text, Caret.text, List.append_assoc, List.cons_append,
        ← List.append_assoc (List.take _ _), List.take_append_drop, below, List.append_assoc]
    · rw [moved, List.append_assoc _ ['\n']]
      rfl

/-- Every keystroke acts as its edit or movement, unless it inserts into a full string. -/
theorem Shows.press_eq (keystroke : Keystroke) :
    (∃ next, input.press keystroke = .ok next ∧ next.Shows (keystroke.act caret)) ∨
      input.press keystroke = .error .capacityOverflow := by
  cases keystroke with
  | insert character => exact shows.insert_eq character
  | backspace => exact .inl shows.backspace_eq
  | delete => exact .inl shows.delete_eq
  | left => exact .inl (shows.left_eq.imp fun _ ran => ⟨ran.1, ran.2.2⟩)
  | right => exact .inl (shows.right_eq.imp fun _ ran => ⟨ran.1, ran.2.2⟩)
  | home => exact .inl (shows.home_eq.imp fun _ ran => ⟨ran.1, ran.2.2⟩)
  | toEnd => exact .inl (shows.toEnd_eq.imp fun _ ran => ⟨ran.1, ran.2.2⟩)
  | up => exact .inl (shows.up_eq.imp fun _ ran => ⟨ran.1, ran.2.2⟩)
  | down => exact .inl (shows.down_eq.imp fun _ ran => ⟨ran.1, ran.2.2⟩)

/-- A movement leaves the value. -/
theorem Shows.press_moves {keystroke : Keystroke} (moves : keystroke.moves = true) :
    ∃ next, input.press keystroke = .ok next ∧ next.value = input.value := by
  cases keystroke with
  | insert character => cases moves
  | backspace => cases moves
  | delete => cases moves
  | left => exact shows.left_eq.imp fun _ ran => ⟨ran.1, ran.2.1⟩
  | right => exact shows.right_eq.imp fun _ ran => ⟨ran.1, ran.2.1⟩
  | home => exact shows.home_eq.imp fun _ ran => ⟨ran.1, ran.2.1⟩
  | toEnd => exact shows.toEnd_eq.imp fun _ ran => ⟨ran.1, ran.2.1⟩
  | up => exact shows.up_eq.imp fun _ ran => ⟨ran.1, ran.2.1⟩
  | down => exact shows.down_eq.imp fun _ ran => ⟨ran.1, ran.2.1⟩

/-- There is room for an insertion while the string stays within its bound. -/
theorem Shows.insert_of_fits {character : Char}
    (fits : input.value.text.utf8ByteSize + character.utf8Size ≤ isizeMax) :
    ∃ next, input.insert character = .ok next ∧ next.Shows (caret.insert character) := by
  rcases shows.insert_eq character with inserted | full
  · exact inserted
  · have room := OwnedText.insert_of_fits shows.value fits
    rw [TextInput.insert, shows.cursor] at full
    cases inserted : input.value.insert (extent Char.utf8Size caret.before) character with
    | ok value => simp [inserted, Bind.bind, Except.bind] at full
    | error panic =>
        rw [inserted] at full room
        cases full
        exact absurd rfl room

omit shows in
/-- The size of a string is the extent of the text that it shows. -/
theorem Shows.size_le {next : TextInput} {target : Caret Char} (nextShows : next.Shows target)
    {grown : Nat} (grows : extent Char.utf8Size target.text ≤ grown) :
    next.value.text.utf8ByteSize ≤ grown := by
  rw [utf8ByteSize_eq_extent, nextShows.value]
  exact grows

/-- A keystroke makes the string no longer than by what it inserts. -/
theorem Shows.press_grows {keystroke : Keystroke} {next : TextInput}
    (pressed : input.press keystroke = .ok next) :
    next.value.text.utf8ByteSize ≤ input.value.text.utf8ByteSize + keystroke.inserted := by
  cases moves : keystroke.moves with
  | true =>
      obtain ⟨other, ran, same⟩ := shows.press_moves moves
      cases ran.symm.trans pressed
      rw [same]
      exact Nat.le_add_right _ _
  | false =>
      have size := shows.length_eq
      rw [extent_append] at size
      cases keystroke with
      | insert character =>
          rcases shows.insert_eq character with ⟨other, ran, otherShows⟩ | full
          · cases ran.symm.trans pressed
            refine otherShows.size_le ?_
            simp only [Keystroke.inserted, Caret.insert, Caret.text, extent_append, extent_cons,
              extent_nil]
            omega
          · cases full.symm.trans pressed
      | backspace =>
          obtain ⟨other, ran, otherShows⟩ := shows.backspace_eq
          cases ran.symm.trans pressed
          refine otherShows.size_le ?_
          obtain ⟨last, whole⟩ := List.dropLast_prefix caret.before
          have shorter : extent Char.utf8Size caret.before.dropLast ≤
              extent Char.utf8Size caret.before := extent_le_of_append whole.symm
          simp only [Keystroke.inserted, Caret.backspace, Caret.text, extent_append]
          omega
      | delete =>
          obtain ⟨other, ran, otherShows⟩ := shows.delete_eq
          cases ran.symm.trans pressed
          refine otherShows.size_le ?_
          cases afterEq : caret.after with
          | nil => simp_all [Keystroke.inserted, Caret.delete, Caret.text]
          | cons letter rest =>
              rw [afterEq, extent_cons] at size
              simp only [Keystroke.inserted, Caret.delete, Caret.text, afterEq, List.tail_cons,
                extent_append]
              omega
      | left | right | home | toEnd | up | down => cases moves

/-- A keystroke stops the program only where it inserts into a full string. -/
theorem Shows.press_of_fits {keystroke : Keystroke}
    (fits : input.value.text.utf8ByteSize + keystroke.inserted ≤ isizeMax) :
    ∃ next, input.press keystroke = .ok next ∧ next.Shows (keystroke.act caret) := by
  rcases shows.press_eq keystroke with pressed | full
  · exact pressed
  · cases moves : keystroke.moves with
    | true =>
        obtain ⟨next, ran, _⟩ := shows.press_moves moves
        cases ran.symm.trans full
    | false =>
        cases keystroke with
        | insert character => exact shows.insert_of_fits fits
        | backspace => exact shows.backspace_eq
        | delete => exact shows.delete_eq
        | left | right | home | toEnd | up | down => cases moves

/-- Keystrokes one after the other act as their edits and movements, as long as
the string has room for what they insert. -/
theorem Shows.type_of_fits {keystrokes : List Keystroke}
    (fits : input.value.text.utf8ByteSize + (keystrokes.map Keystroke.inserted).sum ≤
      isizeMax) :
    ∃ next, input.type keystrokes = .ok next ∧
      next.Shows (keystrokes.foldl Keystroke.act caret) := by
  induction keystrokes generalizing input caret with
  | nil => exact ⟨input, rfl, shows⟩
  | cons keystroke keystrokes inductionHypothesis =>
      rw [List.map_cons, List.sum_cons] at fits
      have room : input.value.text.utf8ByteSize + keystroke.inserted ≤ isizeMax := by omega
      obtain ⟨next, pressed, nextShows⟩ := shows.press_of_fits room
      have grown := shows.press_grows pressed
      rw [type, List.foldlM_cons, pressed]
      exact inductionHypothesis nextShows (by omega)

/-- Without that room they act so or stop at an insertion. -/
theorem Shows.type_eq (keystrokes : List Keystroke) :
    (∃ next, input.type keystrokes = .ok next ∧
      next.Shows (keystrokes.foldl Keystroke.act caret)) ∨
      input.type keystrokes = .error .capacityOverflow := by
  induction keystrokes generalizing input caret with
  | nil => exact .inl ⟨input, rfl, shows⟩
  | cons keystroke keystrokes inductionHypothesis =>
      rw [type, List.foldlM_cons]
      rcases shows.press_eq keystroke with ⟨next, pressed, nextShows⟩ | full
      · rw [pressed]
        exact inductionHypothesis nextShows
      · rw [full]
        exact .inr rfl

end Boundaries

end Refinement

/-! ## Editing sessions -/

/-- An input stops at a line of its text, counted from zero, and a column of it. -/
def StopsAt (input : TextInput) (row column : Nat) : Prop :=
  ∃ caret, input.Shows caret ∧ caret.row '\n' = row ∧ caret.column '\n' = column

/-- What holds of an input whose cursor lies between two characters. -/
structure Behaves (input : TextInput) (caret : Caret Char) : Prop where
  shows : input.Shows caret
  inside : input.cursor ≤ input.value.text.utf8ByteSize
  insert : ∀ character : Char,
    input.value.text.utf8ByteSize + character.utf8Size ≤ isizeMax →
      ∃ next, input.insert character = .ok next ∧ next.Shows (caret.insert character)
  insert_backspace : ∀ character next, input.insert character = .ok next →
    next.backspace = .ok input
  left_delete : 0 < input.cursor →
    ∃ moved, input.left = .ok moved ∧ moved.delete = input.backspace
  moves : ∀ keystroke : Keystroke, keystroke.moves = true →
    ∃ next, input.press keystroke = .ok next ∧ next.value = input.value
  up_first : caret.row '\n' = 0 → input.up = .ok input
  up_line : ∀ row line, caret.row '\n' = row + 1 →
    (Caret.lines '\n' input.value.text.toList)[row]? = some line →
      ∃ next, input.up = .ok next ∧ next.value = input.value ∧
        next.StopsAt row (min (caret.column '\n') line.length)
  down_last : (Caret.lines '\n' input.value.text.toList)[caret.row '\n' + 1]? = none →
    input.down = .ok input
  down_line : ∀ line,
    (Caret.lines '\n' input.value.text.toList)[caret.row '\n' + 1]? = some line →
      ∃ next, input.down = .ok next ∧ next.value = input.value ∧
        next.StopsAt (caret.row '\n' + 1) (min (caret.column '\n') line.length)

section Laws

variable {input : TextInput} {caret : Caret Char} (shows : input.Shows caret)

include shows

theorem Shows.backspace_of_insert {character : Char} {next : TextInput}
    (inserted : input.insert character = .ok next) : next.backspace = .ok input := by
  rcases shows.insert_eq character with ⟨other, ran, otherShows⟩ | full
  · rw [ran] at inserted
    cases inserted
    obtain ⟨back, removed, backShows⟩ := otherShows.backspace_eq
    rw [Caret.backspace_insert] at backShows
    rw [removed, ext_of_shows backShows shows]
  · rw [full] at inserted
    cases inserted

theorem Shows.delete_of_left (inside : 0 < input.cursor) :
    ∃ moved, input.left = .ok moved ∧ moved.delete = input.backspace := by
  have before : caret.before ≠ [] := by
    intro empty
    rw [shows.cursor, empty] at inside
    cases inside
  obtain ⟨moved, ran, _, movedShows⟩ := shows.left_eq
  obtain ⟨deleted, deleteRan, deletedShows⟩ := movedShows.delete_eq
  obtain ⟨removed, removeRan, removedShows⟩ := shows.backspace_eq
  rw [Caret.delete_left before] at deletedShows
  exact ⟨moved, ran, by rw [deleteRan, removeRan, ext_of_shows deletedShows removedShows]⟩

/-- A movement that leaves the caret leaves the input. -/
theorem Shows.eq_of_stays {result : Except Panic TextInput} {target : Caret Char}
    (ran : ∃ next, result = .ok next ∧ next.value = input.value ∧ next.Shows target)
    (stays : target = caret) : result = .ok input := by
  obtain ⟨next, ran, _, nextShows⟩ := ran
  rw [stays] at nextShows
  exact ran.trans (congrArg Except.ok (ext_of_shows nextShows shows))

theorem Shows.behaves : input.Behaves caret where
  shows := shows
  inside := by
    rw [shows.cursor, shows.length_eq]
    exact extent_le_of_append rfl
  insert _ := shows.insert_of_fits
  insert_backspace _ _ := shows.backspace_of_insert
  left_delete := shows.delete_of_left
  moves _ := shows.press_moves
  up_first first := shows.eq_of_stays shows.up_eq (Caret.up_of_row_zero first)
  up_line row line below above := by
    rw [shows.value] at above
    obtain ⟨_, rowEq, columnEq⟩ := Caret.up_of_line below above
    obtain ⟨next, ran, same, nextShows⟩ := shows.up_eq
    exact ⟨next, ran, same, _, nextShows, rowEq, columnEq⟩
  down_last last := by
    rw [shows.value] at last
    exact shows.eq_of_stays shows.down_eq (Caret.down_of_last last)
  down_line line below := by
    rw [shows.value] at below
    obtain ⟨_, rowEq, columnEq⟩ := Caret.down_of_line below
    obtain ⟨next, ran, same, nextShows⟩ := shows.down_eq
    exact ⟨next, ran, same, _, nextShows, rowEq, columnEq⟩

end Laws

/-- In every editing session the cursor lies between two characters, and no
operation goes out of bounds.  A session stops only when it inserts more than a
string may hold. -/
theorem cursor_between_characters (initial : OwnedText) (keystrokes : List Keystroke) :
    (∃ input caret, (new initial).type keystrokes = .ok input ∧ input.Behaves caret) ∨
      (new initial).type keystrokes = .error .capacityOverflow ∧
        isizeMax < initial.text.utf8ByteSize + (keystrokes.map Keystroke.inserted).sum := by
  have shows := shows_new initial
  by_cases fits : initial.text.utf8ByteSize + (keystrokes.map Keystroke.inserted).sum ≤ isizeMax
  · obtain ⟨input, typed, inputShows⟩ := shows.type_of_fits fits
    exact .inl ⟨input, _, typed, inputShows.behaves⟩
  · rcases shows.type_eq keystrokes with ⟨input, typed, inputShows⟩ | full
    · exact .inl ⟨input, _, typed, inputShows.behaves⟩
    · exact .inr ⟨full, Nat.lt_of_not_le fits⟩

-- The keystrokes of the test `text_input_edits_unicode_at_boundaries`.
example :
    ((new ⟨"aé", by decide⟩).type [.left, .backspace, .insert 'β']).map
      (fun input => input.value.text) = .ok "βé" := by
  decide +kernel

end TextInput

end LocalHold
