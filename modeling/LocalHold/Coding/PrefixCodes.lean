import Mathlib

/-!
# Prefix-free codes

A code is prefix-free on some values when the word of such a value can be split
off any text that starts with it.  Words of one length, words framed by their
length and words behind a tag are prefix-free; a sequence of words can be read
back when what follows it starts no word.
-/

namespace Coding

universe u v w

variable {α : Type u} {γ : Type v} {β : Type w}

/-- The value of a word, and what follows the word, are determined by the text. -/
def PrefixFreeOn (valid : α → Prop) (encode : α → List β) : Prop :=
  ∀ ⦃first second : α⦄, valid first → valid second → ∀ ⦃left right : List β⦄,
    encode first ++ left = encode second ++ right → first = second ∧ left = right

/-- A text that starts with no word of a valid value. -/
def StartsNone (valid : α → Prop) (encode : α → List β) (text : List β) : Prop :=
  ∀ value, valid value → ∀ rest, text ≠ encode value ++ rest

section Rules

variable {valid : α → Prop} {encode : α → List β}

theorem PrefixFreeOn.inj (free : PrefixFreeOn valid encode) {first second : α}
    (firstValid : valid first) (secondValid : valid second)
    (same : encode first = encode second) : first = second := by
  have appended : encode first ++ [] = encode second ++ [] := by rw [same]
  exact (free firstValid secondValid appended).1

/-- Words of one length are prefix-free. -/
theorem prefixFreeOn_of_length {width : Nat} (lengths : ∀ value, (encode value).length = width)
    (inj : ∀ first second, valid first → valid second → encode first = encode second →
      first = second) : PrefixFreeOn valid encode := by
  intro first second firstValid secondValid left right same
  obtain ⟨words, rests⟩ := List.append_inj same (by rw [lengths, lengths])
  exact ⟨inj first second firstValid secondValid words, rests⟩

/-! ## Sequences -/

/-- As many words, one after another, are determined by the text. -/
theorem PrefixFreeOn.flatMap_append_inj (free : PrefixFreeOn valid encode) {first second : List α}
    (firstValid : ∀ value ∈ first, valid value) (secondValid : ∀ value ∈ second, valid value)
    (lengths : first.length = second.length) {left right : List β}
    (same : first.flatMap encode ++ left = second.flatMap encode ++ right) :
    first = second ∧ left = right := by
  induction first generalizing second with
  | nil =>
      cases second with
      | nil => exact ⟨rfl, same⟩
      | cons value rest => cases lengths
  | cons value rest inductionHypothesis =>
      cases second with
      | nil => cases lengths
      | cons other others =>
          rw [List.forall_mem_cons] at firstValid secondValid
          simp only [List.flatMap_cons, List.append_assoc] at same
          obtain ⟨rfl, tails⟩ := free firstValid.1 secondValid.1 same
          obtain ⟨rfl, rests⟩ := inductionHypothesis firstValid.2 secondValid.2
            (Nat.succ.inj lengths) tails
          exact ⟨rfl, rests⟩

/-- A sequence of words ends where no word starts. -/
theorem PrefixFreeOn.flatMap_append_inj_of_startsNone (free : PrefixFreeOn valid encode)
    {first second : List α} (firstValid : ∀ value ∈ first, valid value)
    (secondValid : ∀ value ∈ second, valid value) {left right : List β}
    (leftNone : StartsNone valid encode left) (rightNone : StartsNone valid encode right)
    (same : first.flatMap encode ++ left = second.flatMap encode ++ right) :
    first = second ∧ left = right := by
  induction first generalizing second with
  | nil =>
      cases second with
      | nil => exact ⟨rfl, same⟩
      | cons value rest =>
          rw [List.flatMap_cons, List.append_assoc] at same
          exact absurd same (leftNone value (secondValid value List.mem_cons_self) _)
  | cons value rest inductionHypothesis =>
      cases second with
      | nil =>
          rw [List.flatMap_cons, List.append_assoc] at same
          exact absurd same.symm (rightNone value (firstValid value List.mem_cons_self) _)
      | cons other others =>
          rw [List.forall_mem_cons] at firstValid secondValid
          simp only [List.flatMap_cons, List.append_assoc] at same
          obtain ⟨rfl, tails⟩ := free firstValid.1 secondValid.1 same
          obtain ⟨rfl, rests⟩ := inductionHypothesis firstValid.2 secondValid.2 tails
          exact ⟨rfl, rests⟩

theorem startsNone_nil (nonempty : ∀ value, encode value ≠ []) :
    StartsNone valid encode [] := by
  intro value _ rest same
  exact nonempty value (List.append_eq_nil_iff.mp same.symm).1

/-- A sequence of words that are not empty is determined by its text. -/
theorem PrefixFreeOn.flatMap_inj (free : PrefixFreeOn valid encode)
    (nonempty : ∀ value, encode value ≠ []) {first second : List α}
    (firstValid : ∀ value ∈ first, valid value) (secondValid : ∀ value ∈ second, valid value)
    (same : first.flatMap encode = second.flatMap encode) : first = second := by
  have none : StartsNone valid encode [] := startsNone_nil nonempty
  have appended : first.flatMap encode ++ [] = second.flatMap encode ++ [] := by rw [same]
  exact (free.flatMap_append_inj_of_startsNone firstValid secondValid none none appended).1

/-- A sequence of words behind a word that tells how many there are. -/
theorem PrefixFreeOn.counted (free : PrefixFreeOn valid encode) {few : Nat → Prop}
    {frame : Nat → List β} (frameFree : PrefixFreeOn few frame) :
    PrefixFreeOn (fun values : List α => few values.length ∧ ∀ value ∈ values, valid value)
      fun values => frame values.length ++ values.flatMap encode := by
  rintro first second ⟨firstFew, firstValid⟩ ⟨secondFew, secondValid⟩ left right same
  rw [List.append_assoc, List.append_assoc] at same
  obtain ⟨counts, texts⟩ := frameFree firstFew secondFew same
  exact free.flatMap_append_inj firstValid secondValid counts texts

/-- A text behind a word that tells its length. -/
theorem PrefixFreeOn.framed {few : Nat → Prop} {frame : Nat → List β}
    (frameFree : PrefixFreeOn few frame) :
    PrefixFreeOn (fun text : List β => few text.length) fun text => frame text.length ++ text := by
  intro first second firstFew secondFew left right same
  rw [List.append_assoc, List.append_assoc] at same
  obtain ⟨lengths, texts⟩ := frameFree firstFew secondFew same
  exact List.append_inj texts lengths

end Rules

/-! ## Numbers -/

/-- The bytes of a number, most significant first. -/
def bigEndian : Nat → Nat → List UInt8
  | 0, _ => []
  | width + 1, value => UInt8.ofNat (value / 256 ^ width) :: bigEndian width (value % 256 ^ width)

@[simp]
theorem length_bigEndian (width value : Nat) : (bigEndian width value).length = width := by
  induction width generalizing value with
  | zero => rfl
  | succ width inductionHypothesis => rw [bigEndian, List.length_cons, inductionHypothesis]

/-- The first byte of a number that fits is its highest digit. -/
theorem toNat_head_bigEndian {width value : Nat} (bound : value < 256 ^ (width + 1)) :
    (UInt8.ofNat (value / 256 ^ width)).toNat = value / 256 ^ width := by
  rw [Nat.pow_succ] at bound
  exact UInt8.toNat_ofNat_of_lt' (Nat.div_lt_of_lt_mul bound)

/-- Numbers that fit are determined by their bytes. -/
theorem bigEndian_inj {width first second : Nat} (firstBound : first < 256 ^ width)
    (secondBound : second < 256 ^ width) (same : bigEndian width first = bigEndian width second) :
    first = second := by
  induction width generalizing first second with
  | zero =>
      rw [Nat.pow_zero, Nat.lt_one_iff] at firstBound secondBound
      rw [firstBound, secondBound]
  | succ width inductionHypothesis =>
      have positive : 0 < 256 ^ width := Nat.pow_pos (by decide)
      rw [bigEndian, bigEndian, List.cons.injEq] at same
      have heads : first / 256 ^ width = second / 256 ^ width := by
        rw [← toNat_head_bigEndian firstBound, ← toNat_head_bigEndian secondBound, same.1]
      have tails := inductionHypothesis (Nat.mod_lt _ positive) (Nat.mod_lt _ positive) same.2
      rw [← Nat.div_add_mod first (256 ^ width), heads, tails, Nat.div_add_mod]

/-- Numbers that fit are prefix-free. -/
theorem prefixFreeOn_bigEndian (width : Nat) :
    PrefixFreeOn (fun value => value < 256 ^ width) (bigEndian width) :=
  prefixFreeOn_of_length (length_bigEndian width) fun _ _ => bigEndian_inj

/-! ## Blocks without marks between them -/

/-- A block of the first sequence ends with letters that the second sequence has
behind that block; the blocks in front are the same, and so is all that follows. -/
def Shifts (first second : List (List β)) : Prop :=
  ∃ front block moved rest others, moved ≠ [] ∧ first = front ++ (block ++ moved) :: rest ∧
    second = front ++ block :: others ∧ others.flatten = moved ++ rest.flatten

theorem Shifts.cons {first second : List (List β)} (shifts : Shifts first second)
    (block : List β) : Shifts (block :: first) (block :: second) := by
  obtain ⟨front, place, moved, rest, others, filled, rfl, rfl, follow⟩ := shifts
  exact ⟨block :: front, place, moved, rest, others, filled, rfl, rfl, follow⟩

theorem Shifts.flatten_eq {first second : List (List β)} (shifts : Shifts first second) :
    first.flatten = second.flatten := by
  obtain ⟨front, place, moved, rest, others, -, rfl, rfl, follow⟩ := shifts
  rw [List.flatten_append, List.flatten_append, List.flatten_cons, List.flatten_cons, follow,
    List.append_assoc]

theorem Shifts.lengths_ne {first second : List (List β)} (shifts : Shifts first second) :
    first.map List.length ≠ second.map List.length := by
  obtain ⟨front, place, moved, rest, others, filled, rfl, rfl, -⟩ := shifts
  intro same
  rw [List.map_append, List.map_append, List.append_cancel_left_eq, List.map_cons, List.map_cons,
    List.length_append] at same
  exact filled (List.length_eq_zero_iff.mp (by simpa using (List.cons.inj same).1))

/-- As many blocks with the same letters in turn are the same blocks, or letters
have moved over the end of a block. -/
theorem flatten_eq_iff {first second : List (List β)} (lengths : first.length = second.length) :
    first.flatten = second.flatten ↔
      first = second ∨ Shifts first second ∨ Shifts second first := by
  constructor
  · intro same
    induction first generalizing second with
    | nil =>
        cases second with
        | nil => exact Or.inl rfl
        | cons block rest => cases lengths
    | cons block rest inductionHypothesis =>
        cases second with
        | nil => cases lengths
        | cons other others =>
            rw [List.flatten_cons, List.flatten_cons] at same
            have shorter : rest.length = others.length := Nat.succ.inj lengths
            rcases List.append_eq_append_iff.mp same with
              ⟨moved, rfl, follow⟩ | ⟨moved, rfl, follow⟩
            · by_cases filled : moved = []
              · subst filled
                rw [List.append_nil] at *
                rcases inductionHypothesis shorter follow with rfl | shifts | shifts
                · exact Or.inl rfl
                · exact Or.inr (Or.inl (shifts.cons block))
                · exact Or.inr (Or.inr (shifts.cons block))
              · exact Or.inr (Or.inr ⟨[], block, moved, others, rest, filled, rfl, rfl, follow⟩)
            · by_cases filled : moved = []
              · subst filled
                rw [List.append_nil] at *
                rcases inductionHypothesis shorter follow.symm with rfl | shifts | shifts
                · exact Or.inl rfl
                · exact Or.inr (Or.inl (shifts.cons other))
                · exact Or.inr (Or.inr (shifts.cons other))
              · exact Or.inr (Or.inl ⟨[], other, moved, rest, others, filled, rfl, rfl, follow⟩)
  · rintro (rfl | shifts | shifts)
    · rfl
    · exact shifts.flatten_eq
    · exact shifts.flatten_eq.symm

end Coding
