import Mathlib.Data.List.Range
import Mathlib.Data.String.Basic

/-!
# Numbered placeholders

A statement is put together from templates: fixed text, numbered placeholders for
some values, fixed text.  When the templates are numbered one after another, the
placeholders of the whole text are consecutive numbers, and each stands where its
value stands in the list of all values.
-/

namespace Coding

universe u

/-! ## Placeholders of a text -/

/-- The numbers behind the question marks of a text, from left to right; a question
mark without a number counts as zero. -/
def placeholders : List Char → List Nat
  | [] => []
  | letter :: rest =>
      if letter = '?' then Nat.ofDigitChars 10 (rest.takeWhile Char.isDigit) 0 :: placeholders rest
      else placeholders rest

/-- `?index`. -/
def placeholder (index : Nat) : String :=
  s!"?{index}"

/-- The text starts with no digit. -/
def StartsPlain (text : List Char) : Prop :=
  ∀ letter ∈ text.head?, letter.isDigit = false

theorem all_head?_iff (text : List Char) :
    (text.head?.all fun letter => letter.isDigit == false) = true ↔ StartsPlain text := by
  rw [Option.all_eq_true]
  exact forall₂_congr fun letter _ => beq_iff_eq

instance (text : List Char) : Decidable (StartsPlain text) :=
  decidable_of_iff _ (all_head?_iff text)

theorem placeholders_append_of_free {text : List Char} (free : '?' ∉ text) (rest : List Char) :
    placeholders (text ++ rest) = placeholders rest := by
  induction text with
  | nil => rfl
  | cons letter text inductionHypothesis =>
      rw [List.mem_cons, not_or] at free
      rw [List.cons_append, placeholders, if_neg fun mark => free.1 mark.symm,
        inductionHypothesis free.2]

theorem placeholders_placeholder (index : Nat) {rest : List Char} (plain : StartsPlain rest) :
    placeholders ((placeholder index).toList ++ rest) = index :: placeholders rest := by
  have spelled : (placeholder index).toList = '?' :: Nat.toDigits 10 index := by
    rw [placeholder, String.toList_append]
    exact congrArg ('?' :: ·) (by simp [toString, Nat.repr])
  have digits : ∀ letter ∈ Nat.toDigits 10 index, letter.isDigit = true := fun letter member =>
    Nat.isDigit_of_mem_toDigits (by decide) (by decide) member
  have free : '?' ∉ Nat.toDigits 10 index := fun member =>
    absurd (digits '?' member) (by decide)
  have stops : rest.takeWhile Char.isDigit = [] := by
    cases rest with
    | nil => rfl
    | cons letter rest => simp [plain letter rfl]
  rw [spelled, List.cons_append, placeholders, if_pos rfl,
    List.takeWhile_append_of_pos digits, stops, List.append_nil, Nat.ofDigitChars_ten_toDigits,
    placeholders_append_of_free free]

/-- Consecutive placeholders with commas between them. -/
def placeholderList (start count : Nat) : String :=
  ", ".intercalate ((List.range' start count).map placeholder)

theorem startsPlain_append {text : List Char} (rest : List Char) (filled : text ≠ [])
    (plain : StartsPlain text) : StartsPlain (text ++ rest) := by
  cases text with
  | nil => exact absurd rfl filled
  | cons letter text => exact plain

theorem placeholders_placeholderList (start count : Nat) {rest : List Char}
    (plain : 0 < count → StartsPlain rest) :
    placeholders ((placeholderList start count).toList ++ rest) =
      List.range' start count ++ placeholders rest := by
  induction count generalizing start with
  | zero => rfl
  | succ count inductionHypothesis =>
      have restPlain := plain (Nat.succ_pos count)
      cases count with
      | zero =>
          rw [placeholderList, List.range'_one, List.map_singleton, String.intercalate_singleton,
            placeholders_placeholder start restPlain]
          rfl
      | succ count =>
          have later := inductionHypothesis (start + 1) fun _ => restPlain
          have comma : (", " : String).toList = [',', ' '] := rfl
          rw [placeholderList, List.range'_succ, List.map_cons] at later
          rw [placeholderList, List.range'_succ, List.range'_succ, List.map_cons, List.map_cons, String.intercalate_cons_cons, String.toList_append,
            String.toList_append, List.append_assoc, List.append_assoc,
            placeholders_placeholder start (by simp [comma, StartsPlain]),
            placeholders_append_of_free (by simp [comma]), later]
          rfl

/-! ## Templates -/

/-- Fixed text around the placeholders of some values. -/
structure Template (ν : Type u) where
  before : String
  values : List ν
  after : String

namespace Template

variable {ν : Type u}

/-- The template with its placeholders numbered from a start. -/
def text (template : Template ν) (start : Nat) : String :=
  template.before ++ placeholderList start template.values.length ++ template.after

/-- The fixed text has no placeholder, and no digit behind the placeholders. -/
structure Plain (template : Template ν) : Prop where
  before : '?' ∉ template.before.toList
  after : '?' ∉ template.after.toList
  boundary : StartsPlain template.after.toList

theorem Plain.placeholders_text {template : Template ν} (plain : template.Plain) (start : Nat)
    {rest : List Char} (restPlain : StartsPlain rest) :
    placeholders ((template.text start).toList ++ rest) =
      List.range' start template.values.length ++ placeholders rest := by
  have boundary : StartsPlain (template.after.toList ++ rest) := by
    by_cases empty : template.after.toList = []
    · rw [empty]
      exact restPlain
    · exact startsPlain_append rest empty plain.boundary
  rw [text, String.toList_append, String.toList_append, List.append_assoc, List.append_assoc,
    placeholders_append_of_free plain.before, placeholders_placeholderList start _ fun _ => boundary,
    placeholders_append_of_free plain.after]

/-- The values of some templates, in order. -/
def allValues (templates : List (Template ν)) : List ν :=
  templates.flatMap Template.values

/-- The templates numbered one after another. -/
def numbered : Nat → List (Template ν) → List String
  | _, [] => []
  | start, template :: rest =>
      template.text start :: numbered (start + template.values.length) rest

@[simp]
theorem allValues_nil : allValues ([] : List (Template ν)) = [] :=
  rfl

theorem allValues_cons (template : Template ν) (rest : List (Template ν)) :
    allValues (template :: rest) = template.values ++ allValues rest :=
  List.flatMap_cons

theorem allValues_append (first second : List (Template ν)) :
    allValues (first ++ second) = allValues first ++ allValues second :=
  List.flatMap_append

theorem numbered_append (start : Nat) (first second : List (Template ν)) :
    numbered start (first ++ second) =
      numbered start first ++ numbered (start + (allValues first).length) second := by
  induction first generalizing start with
  | nil => rfl
  | cons template rest inductionHypothesis =>
      rw [List.cons_append, numbered, numbered, inductionHypothesis, allValues_cons,
        List.length_append, Nat.add_assoc, List.cons_append]

theorem length_numbered (start : Nat) (templates : List (Template ν)) :
    (numbered start templates).length = templates.length := by
  induction templates generalizing start with
  | nil => rfl
  | cons template rest inductionHypothesis =>
      rw [numbered, List.length_cons, List.length_cons, inductionHypothesis]

/-- Templates joined by a separator have consecutive placeholders. -/
theorem placeholders_intercalate {templates : List (Template ν)} {separator : String}
    (plain : ∀ template ∈ templates, template.Plain) (separatorFree : '?' ∉ separator.toList)
    (separatorFilled : separator.toList ≠ []) (separatorPlain : StartsPlain separator.toList)
    (start : Nat) {rest : List Char} (restPlain : StartsPlain rest) :
    placeholders ((separator.intercalate (numbered start templates)).toList ++ rest) =
      List.range' start (allValues templates).length ++ placeholders rest := by
  induction templates generalizing start with
  | nil => simp [numbered]
  | cons template others inductionHypothesis =>
      rw [List.forall_mem_cons] at plain
      have later := inductionHypothesis plain.2 (start + template.values.length)
      cases others with
      | nil =>
          rw [numbered, numbered, String.intercalate_singleton, plain.1.placeholders_text start
            restPlain]
          simp [allValues]
      | cons second others =>
          rw [numbered, numbered, String.intercalate_cons_cons, String.toList_append,
            String.toList_append, List.append_assoc, List.append_assoc,
            plain.1.placeholders_text start
              (startsPlain_append _ separatorFilled separatorPlain),
            placeholders_append_of_free separatorFree]
          rw [numbered] at later
          rw [later, @allValues_cons _ template, List.length_append, ← List.range'_append_1,
            List.append_assoc]

end Template

end Coding
