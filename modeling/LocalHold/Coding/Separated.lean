import Mathlib.Data.List.DropRight
import Mathlib.Data.List.Basic

/-!
# Texts cut at separators

A text is cut at the last or at the first of its separators; the piece that is
cut off holds no separator.  Taking the last piece off again and again gives
the texts in front of each separator.
-/

namespace Coding

universe u

variable {β : Type u} [DecidableEq β] (separator : β)

/-- A text up to its last separator, and the piece behind it. -/
def splitLast (text : List β) : List β × List β :=
  (text.rdropWhile (fun letter => letter ≠ separator),
    text.rtakeWhile fun letter => letter ≠ separator)

/-- The piece in front of the first separator, and the text from there on. -/
def splitFirst (text : List β) : List β × List β :=
  (text.takeWhile (fun letter => letter ≠ separator),
    text.dropWhile fun letter => letter ≠ separator)

variable {separator}

theorem splitLast_of_free {text : List β} (free : separator ∉ text) :
    splitLast separator text = ([], text) := by
  have kept : ∀ letter ∈ text, decide (letter ≠ separator) = true := fun letter placed =>
    decide_eq_true fun same => free (same ▸ placed)
  rw [splitLast, List.rdropWhile_eq_nil_iff.mpr kept, List.rtakeWhile_eq_self_iff.mpr kept]

theorem splitLast_append_cons (earlier : List β) {piece : List β} (free : separator ∉ piece) :
    splitLast separator (earlier ++ separator :: piece) = (earlier ++ [separator], piece) := by
  induction piece using List.reverseRecOn with
  | nil => simp [splitLast]
  | append_singleton piece letter inductionHypothesis =>
      rw [List.mem_append, not_or, List.mem_singleton] at free
      have split := inductionHypothesis free.1
      have other : decide (letter ≠ separator) = true := decide_eq_true fun same => free.2 same.symm
      rw [splitLast, Prod.mk.injEq] at split
      rw [splitLast, ← List.cons_append, ← List.append_assoc,
        List.rdropWhile_concat, if_pos other, List.rtakeWhile_concat, if_pos other, split.1, split.2]

theorem splitFirst_of_free {text : List β} (free : separator ∉ text) :
    splitFirst separator text = (text, []) := by
  have kept : ∀ letter ∈ text, decide (letter ≠ separator) = true := fun letter placed =>
    decide_eq_true fun same => free (same ▸ placed)
  rw [splitFirst, List.takeWhile_eq_self_iff.mpr kept, List.dropWhile_eq_nil_iff.mpr kept]

theorem splitFirst_append_cons {piece : List β} (free : separator ∉ piece) (later : List β) :
    splitFirst separator (piece ++ separator :: later) = (piece, separator :: later) := by
  have kept : ∀ letter ∈ piece, decide (letter ≠ separator) = true := fun letter placed =>
    decide_eq_true fun same => free (same ▸ placed)
  rw [splitFirst, List.takeWhile_append_of_pos kept, List.dropWhile_append_of_pos kept]
  simp

/-- A text is one piece, or ends in a piece behind its last separator. -/
theorem free_or_last (separator : β) (text : List β) :
    separator ∉ text ∨ ∃ earlier piece, text = earlier ++ separator :: piece ∧ separator ∉ piece := by
  by_cases placed : separator ∈ text
  · obtain ⟨piece, earlier, reversed, free⟩ :=
      List.eq_append_cons_of_mem (List.mem_reverse.mpr placed)
    refine .inr ⟨earlier.reverse, piece.reverse, ?_, fun member => free (List.mem_reverse.mp member)⟩
    rw [← List.reverse_reverse text, reversed]
    simp
  · exact .inl placed

/-- A text is one piece, or starts with a piece in front of its first separator. -/
theorem free_or_first (separator : β) (text : List β) :
    separator ∉ text ∨ ∃ piece later, text = piece ++ separator :: later ∧ separator ∉ piece := by
  by_cases placed : separator ∈ text
  · obtain ⟨piece, later, split, free⟩ := List.eq_append_cons_of_mem placed
    exact .inr ⟨piece, later, split, free⟩
  · exact .inl placed

theorem append_splitLast (separator : β) (text : List β) :
    (splitLast separator text).1 ++ (splitLast separator text).2 = text :=
  List.rdropWhile_append_rtakeWhile

theorem not_mem_lastPiece (text : List β) : separator ∉ (splitLast separator text).2 := by
  intro member
  have kept := List.mem_rtakeWhile_imp member
  exact of_decide_eq_true kept rfl

theorem append_splitFirst (separator : β) (text : List β) :
    (splitFirst separator text).1 ++ (splitFirst separator text).2 = text :=
  List.takeWhile_append_dropWhile

theorem not_mem_firstPiece (text : List β) : separator ∉ (splitFirst separator text).1 := by
  intro member
  have kept := List.mem_takeWhile_imp member
  exact of_decide_eq_true kept rfl

/-- The last piece can be exchanged for another. -/
theorem splitLast_append (text : List β) {piece : List β} (free : separator ∉ piece) :
    splitLast separator ((splitLast separator text).1 ++ piece) =
      ((splitLast separator text).1, piece) := by
  rcases free_or_last separator text with whole | ⟨earlier, last, rfl, lastFree⟩
  · rw [splitLast_of_free whole]
    exact splitLast_of_free free
  · rw [splitLast_append_cons earlier lastFree, List.append_assoc]
    exact splitLast_append_cons earlier free

theorem count_lastStart (text : List β) :
    (splitLast separator text).1.count separator = text.count separator := by
  have counted := congrArg (List.count separator) (append_splitLast separator text)
  rwa [List.count_append, List.count_eq_zero_of_not_mem (not_mem_lastPiece text)] at counted

theorem length_splitOn (text : List β) :
    (text.splitOn separator).length = text.count separator + 1 := by
  induction text with
  | nil => rfl
  | cons letter text inductionHypothesis =>
      rw [List.splitOn_cons_eq_if_modifyHead]
      by_cases same : letter = separator
      · rw [if_pos (beq_iff_eq.mpr same), same, List.length_cons, List.count_cons_self]
        exact congrArg Nat.succ inductionHypothesis
      · rw [if_neg (by simpa using same), List.length_modifyHead, List.count_cons_of_ne same]
        exact inductionHypothesis

/-! ## The texts in front of the separators -/

variable (separator)

/-- The text in front of the last separator. -/
def parent? (text : List β) : Option (List β) :=
  if separator ∈ text then some (splitLast separator text).1.dropLast else none

variable {separator}

theorem parent?_of_free {text : List β} (free : separator ∉ text) : parent? separator text = none :=
  if_neg free

theorem parent?_append_cons (earlier : List β) {piece : List β} (free : separator ∉ piece) :
    parent? separator (earlier ++ separator :: piece) = some earlier := by
  rw [parent?, if_pos (by simp), splitLast_append_cons earlier free, List.dropLast_concat]

theorem exists_of_parent? {text shorter : List β} (cut : parent? separator text = some shorter) :
    ∃ piece, text = shorter ++ separator :: piece ∧ separator ∉ piece := by
  rcases free_or_last separator text with free | ⟨earlier, piece, rfl, free⟩
  · rw [parent?_of_free free] at cut
    cases cut
  · rw [parent?_append_cons earlier free] at cut
    cases cut
    exact ⟨piece, rfl, free⟩

theorem length_lt_of_parent? {text shorter : List β}
    (cut : parent? separator text = some shorter) : shorter.length < text.length := by
  obtain ⟨piece, rfl, _⟩ := exists_of_parent? cut
  simp

variable (separator)

/-- The texts in front of the separators, the longest first. -/
def ancestors (text : List β) : List (List β) :=
  match _cut : parent? separator text with
  | none => []
  | some shorter => shorter :: ancestors shorter
termination_by text.length
decreasing_by exact length_lt_of_parent? _cut

variable {separator}

omit [DecidableEq β] in
/-- A text is in front of a separator, up to the last of them or before it. -/
theorem append_cons_eq_iff {earlier piece value : List β} (free : separator ∉ piece) :
    (∃ rest, earlier ++ separator :: piece = value ++ separator :: rest) ↔
      value = earlier ∨ ∃ rest, earlier = value ++ separator :: rest := by
  constructor
  · rintro ⟨rest, same⟩
    rcases List.append_eq_append_iff.mp same with ⟨middle, valueEq, pieceEq⟩ |
      ⟨middle, earlierEq, restEq⟩
    · cases middle with
      | nil => exact .inl (valueEq.trans (List.append_nil _))
      | cons letter middle =>
          rw [List.cons_append, List.cons.injEq] at pieceEq
          exact absurd (by rw [pieceEq.2]; simp) free
    · cases middle with
      | nil => exact .inl (earlierEq.trans (List.append_nil _)).symm
      | cons letter middle =>
          rw [List.cons_append, List.cons.injEq] at restEq
          exact .inr ⟨middle, by rw [earlierEq, restEq.1]⟩
  · rintro (rfl | ⟨rest, rfl⟩)
    · exact ⟨piece, rfl⟩
    · exact ⟨rest ++ separator :: piece, by simp⟩

/-- The ancestors of a text are the texts in front of its separators. -/
theorem mem_ancestors_iff {text value : List β} :
    value ∈ ancestors separator text ↔ ∃ rest, text = value ++ separator :: rest := by
  fun_induction ancestors separator text with
  | case1 text uncut =>
      refine iff_of_false List.not_mem_nil ?_
      rintro ⟨rest, rfl⟩
      rw [parent?, if_pos (by simp)] at uncut
      cases uncut
  | case2 text shorter cut inductionHypothesis =>
      obtain ⟨piece, rfl, free⟩ := exists_of_parent? cut
      rw [List.mem_cons, inductionHypothesis, append_cons_eq_iff free]

/-- There are as many ancestors as separators. -/
theorem length_ancestors (text : List β) :
    (ancestors separator text).length = text.count separator := by
  fun_induction ancestors separator text with
  | case1 text uncut =>
      refine (List.count_eq_zero_of_not_mem fun placed => ?_).symm
      rw [parent?, if_pos placed] at uncut
      cases uncut
  | case2 text shorter cut inductionHypothesis =>
      obtain ⟨piece, rfl, free⟩ := exists_of_parent? cut
      rw [List.length_cons, inductionHypothesis, List.count_append, List.count_cons_self,
        List.count_eq_zero_of_not_mem free]

end Coding
