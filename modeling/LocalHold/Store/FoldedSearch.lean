import LocalHold.Store.Query
import LocalHold.Transition.Checked
import LocalHold.Utf8

/-!
# Searching a text without its case

The filter on the text of a memory compares bytes when the text is ASCII, and
lowercases the text otherwise.  The comparison of bytes slides a window of the
length of the needle over the text.  Both ways find a needle exactly in the
texts whose lowercase form contains it, and no window reaches out of the text.
-/

namespace LocalHold

open Transition.Checked (anyM_ok)

/-- `str::as_bytes`. -/
def asBytes (text : String) : List UInt8 :=
  text.toList.flatMap String.utf8EncodeChar

/-- `is_ascii` of a string, on its bytes. -/
def isAsciiBytes (bytes : List UInt8) : Bool :=
  bytes.all fun byte => decide (byte.toNat < 128)

/-- `u8::to_ascii_lowercase`. -/
def byteToAsciiLowercase (byte : UInt8) : UInt8 :=
  if 65 ≤ byte.toNat ∧ byte.toNat ≤ 90 then byte + 32 else byte

/-- `&bytes[start..stop]`. -/
def sliceBytes (bytes : List UInt8) (start stop : Nat) : Except Panic (List UInt8) :=
  if start ≤ stop ∧ stop ≤ bytes.length then .ok ((bytes.drop start).take (stop - start))
  else .error .outOfBounds

/-- Whether the window from `start` on is the needle, up to the case of its letters. -/
def windowMatches (haystack needle : List UInt8) (start : Nat) : Except Panic Bool := do
  let window ← sliceBytes haystack start (saturatingAdd start needle.length)
  .ok ((window.zip needle).all fun pair => byteToAsciiLowercase pair.1 == pair.2)

/-- `contains_case_insensitive_ascii`, on bytes. -/
def containsCaseInsensitiveBytes [Host] (haystack : OwnedText) (needle : String) :
    Except Panic Bool :=
  if needle.isEmpty then .ok true
  else
    let haystackBytes := asBytes haystack.text
    if isAsciiBytes haystackBytes then
      let needleBytes := asBytes needle
      if haystackBytes.length < needleBytes.length then .ok false
      else
        let stop := saturatingAdd haystackBytes.length 1 - needleBytes.length
        (List.range stop).anyM (windowMatches haystackBytes needleBytes)
    else .ok (decide (needle.toList <:+: (Host.toLowercase haystack.text).toList))

/-! ## Bytes of ASCII letters -/

section Bytes

/-- A fact about the ASCII letters, checked for each of their codes. -/
theorem ascii_forall {holds : Char → Prop} (each : ∀ code < 128, holds (Char.ofNat code))
    (letter : Char) (ascii : letter.toNat < 128) : holds letter := by
  have checked := each letter.toNat ascii
  rwa [Char.ofNat_toNat] at checked

/-- The byte of an ASCII letter. -/
def asciiByte (letter : Char) : UInt8 :=
  UInt8.ofNat letter.toNat

theorem utf8EncodeChar_ascii (letter : Char) (ascii : letter.toNat < 128) :
    String.utf8EncodeChar letter = [asciiByte letter] :=
  @ascii_forall (fun letter => String.utf8EncodeChar letter = [asciiByte letter])
    (by decide +kernel) letter ascii

theorem lowercase_ascii (letter : Char) (ascii : letter.toNat < 128) :
    byteToAsciiLowercase (asciiByte letter) = asciiByte letter.toLower ∧
      letter.toLower.toNat < 128 :=
  @ascii_forall (fun letter => byteToAsciiLowercase (asciiByte letter) = asciiByte letter.toLower ∧
    letter.toLower.toNat < 128) (by decide +kernel) letter ascii

/-- A letter that is not ASCII has a byte that is not ASCII. -/
theorem exists_byte_of_not_ascii {letter : Char} (other : ¬ letter.toNat < 128) :
    ∃ byte ∈ String.utf8EncodeChar letter, ¬ byte.toNat < 128 := by
  have large : ¬ letter.val.toNat ≤ 127 := fun small => other (Nat.lt_succ_of_le small)
  rw [String.utf8EncodeChar, if_neg large]
  split_ifs
  · refine ⟨_, List.mem_cons_self, ?_⟩
    rw [UInt8.toNat_ofNat']
    omega
  · refine ⟨_, List.mem_cons_self, ?_⟩
    rw [UInt8.toNat_ofNat']
    omega
  · refine ⟨_, List.mem_cons_self, ?_⟩
    rw [UInt8.toNat_ofNat']
    omega

/-- Different texts have different bytes. -/
theorem flatMap_utf8EncodeChar_inj {left right : List Char}
    (same : left.flatMap String.utf8EncodeChar = right.flatMap String.utf8EncodeChar) :
    left = right := by
  have arrays : (String.ofList left).toByteArray = (String.ofList right).toByteArray := by
    rw [String.toByteArray_ofList, String.toByteArray_ofList, List.utf8Encode, List.utf8Encode,
      same]
  exact String.ofList_injective (String.toByteArray_inj.mp arrays)

theorem flatMap_utf8EncodeChar_ascii {letters : List Char}
    (ascii : ∀ letter ∈ letters, letter.toNat < 128) :
    letters.flatMap String.utf8EncodeChar = letters.map asciiByte := by
  induction letters with
  | nil => rfl
  | cons letter letters inductionHypothesis =>
      rw [List.forall_mem_cons] at ascii
      rw [List.flatMap_cons, utf8EncodeChar_ascii letter ascii.1, inductionHypothesis ascii.2]
      rfl

/-- `is_ascii` on bytes is about the letters. -/
theorem isAsciiBytes_asBytes (text : String) :
    isAsciiBytes (asBytes text) = text.toList.all fun letter => decide (letter.toNat < 128) := by
  rw [Bool.eq_iff_iff, isAsciiBytes, List.all_eq_true, List.all_eq_true]
  constructor
  · intro bytes letter placed
    by_contra other
    obtain ⟨byte, byteMem, large⟩ :=
      exists_byte_of_not_ascii fun small => other (decide_eq_true small)
    exact large (of_decide_eq_true (bytes byte (List.mem_flatMap.mpr ⟨letter, placed, byteMem⟩)))
  · intro letters byte placed
    obtain ⟨letter, letterMem, byteMem⟩ := List.mem_flatMap.mp placed
    have small := of_decide_eq_true (letters letter letterMem)
    rw [utf8EncodeChar_ascii letter small, List.mem_singleton] at byteMem
    refine decide_eq_true ?_
    rw [byteMem, asciiByte, UInt8.toNat_ofNat']
    exact Nat.lt_of_le_of_lt (Nat.mod_le _ _) small

end Bytes

/-! ## Windows -/

section Windows

/-- Two lists of one length agree everywhere exactly if they are equal. -/
theorem all_zip_iff {window needle : List UInt8} (lengths : window.length = needle.length)
    (change : UInt8 → UInt8) :
    ((window.zip needle).all fun pair => change pair.1 == pair.2) = true ↔
      window.map change = needle := by
  induction window generalizing needle with
  | nil =>
      cases needle with
      | nil => simp
      | cons byte needle => cases lengths
  | cons byte window inductionHypothesis =>
      cases needle with
      | nil => cases lengths
      | cons other needle =>
          rw [List.zip_cons_cons, List.all_cons, Bool.and_eq_true,
            inductionHypothesis (Nat.succ.inj lengths), beq_iff_eq, List.map_cons, List.cons.injEq]

/-- The lowercase bytes of ASCII letters are the bytes of a text exactly if it
is the letters in lowercase. -/
theorem map_lowercase_eq_iff {letters text : List Char}
    (ascii : ∀ letter ∈ letters, letter.toNat < 128) :
    (letters.map asciiByte).map byteToAsciiLowercase = text.flatMap String.utf8EncodeChar ↔
      letters.map Char.toLower = text := by
  have lowered : (letters.map asciiByte).map byteToAsciiLowercase =
      (letters.map Char.toLower).flatMap String.utf8EncodeChar := by
    rw [flatMap_utf8EncodeChar_ascii, List.map_map, List.map_map]
    · exact List.map_congr_left fun letter placed => (lowercase_ascii letter (ascii letter placed)).1
    · intro letter placed
      obtain ⟨original, originalMem, rfl⟩ := List.mem_map.mp placed
      exact (lowercase_ascii original (ascii original originalMem)).2
  rw [lowered]
  exact ⟨flatMap_utf8EncodeChar_inj, congrArg _⟩

/-- A window inside the text is compared with the needle. -/
theorem windowMatches_eq {haystack needle : List UInt8} {start : Nat}
    (inside : start + needle.length ≤ haystack.length) (fits : haystack.length ≤ isizeMax) :
    windowMatches haystack needle start =
      .ok (decide (((haystack.drop start).take needle.length).map byteToAsciiLowercase =
        needle)) := by
  have stop := saturatingAdd_of_fits (Nat.le_trans inside fits)
  have lengths : ((haystack.drop start).take needle.length).length = needle.length := by
    rw [List.length_take, List.length_drop]
    omega
  rw [windowMatches, sliceBytes, stop, if_pos ⟨Nat.le_add_right _ _, inside⟩,
    Nat.add_sub_cancel_left]
  refine congrArg Except.ok (Bool.eq_iff_iff.mpr ?_)
  rw [all_zip_iff lengths, decide_eq_true_eq]

theorem length_asBytes (text : String) : (asBytes text).length = text.utf8ByteSize := by
  rw [utf8ByteSize_eq_extent, asBytes, List.length_flatMap, Coding.extent]
  exact congrArg List.sum (List.map_congr_left fun letter _ => String.length_utf8EncodeChar letter)

/-- In an ASCII text some window matches exactly if the lowercase text contains
the needle. -/
theorem any_window_iff {letters needle : List Char}
    (ascii : ∀ letter ∈ letters, letter.toNat < 128) :
    (∃ start, start + (needle.flatMap String.utf8EncodeChar).length ≤ letters.length ∧
      (((letters.map asciiByte).drop start).take
        (needle.flatMap String.utf8EncodeChar).length).map byteToAsciiLowercase =
          needle.flatMap String.utf8EncodeChar) ↔
      needle <:+: letters.map Char.toLower := by
  constructor
  · rintro ⟨start, _, same⟩
    rw [← List.map_drop, ← List.map_take, map_lowercase_eq_iff fun letter placed =>
      ascii letter (List.mem_of_mem_drop (List.mem_of_mem_take placed))] at same
    rw [← same]
    exact ((List.take_prefix _ _).isInfix.trans (List.drop_suffix _ _).isInfix).map Char.toLower
  · rintro ⟨before, after, split⟩
    obtain ⟨front, after', lettersEq, frontEq, _⟩ := List.map_eq_append_iff.mp split.symm
    obtain ⟨before', piece, rfl, beforeEq, pieceEq⟩ := List.map_eq_append_iff.mp frontEq
    have pieceAscii : ∀ letter ∈ piece, letter.toNat < 128 := fun letter placed =>
      ascii letter (by rw [lettersEq]; simp [placed])
    have bytesEq := (map_lowercase_eq_iff pieceAscii).mpr pieceEq
    have lengthEq := congrArg List.length bytesEq
    rw [List.length_map, List.length_map] at lengthEq
    refine ⟨before'.length, ?_, ?_⟩
    · rw [← lengthEq, lettersEq, List.length_append, List.length_append]
      exact Nat.le_add_right _ _
    · rw [← bytesEq, List.length_map, List.length_map, lettersEq, List.map_append,
        List.map_append, List.append_assoc]
      simp

end Windows

/-- On an ASCII text the windows find what the lowercase text contains. -/
theorem anyM_windowMatches {haystack : OwnedText} {needle : String}
    (ascii : ∀ letter ∈ haystack.text.toList, letter.toNat < 128)
    (short : ¬ (asBytes haystack.text).length < (asBytes needle).length) :
    (List.range (saturatingAdd (asBytes haystack.text).length 1 - (asBytes needle).length)).anyM
        (windowMatches (asBytes haystack.text) (asBytes needle)) =
      .ok (decide (needle.toList <:+: (asciiLowercase haystack.text).toList)) := by
  have fits : (asBytes haystack.text).length ≤ isizeMax := by
    rw [length_asBytes]
    exact haystack.fits
  have stop : saturatingAdd (asBytes haystack.text).length 1 =
      (asBytes haystack.text).length + 1 :=
    Nat.min_eq_left (Nat.le_trans (Nat.succ_le_succ fits) (by decide))
  have letters : asBytes haystack.text = haystack.text.toList.map asciiByte :=
    flatMap_utf8EncodeChar_ascii ascii
  rw [stop, anyM_ok fun start placed => windowMatches_eq
    (by have inside := List.mem_range.mp placed; omega) fits]
  refine congrArg Except.ok (Bool.eq_iff_iff.mpr ?_)
  rw [List.any_eq_true, decide_eq_true_eq, asciiLowercase, String.toList_ofList,
    ← any_window_iff ascii, letters, List.length_map]
  constructor
  · rintro ⟨start, placed, same⟩
    have inside := List.mem_range.mp placed
    exact ⟨start, by rw [asBytes] at inside; omega, of_decide_eq_true same⟩
  · rintro ⟨start, inside, same⟩
    exact ⟨start, List.mem_range.mpr (by rw [asBytes]; omega), decide_eq_true same⟩

/-- The windows of bytes compute the predicate of the filter. -/
theorem containsCaseInsensitiveBytes_eq [Host] (haystack : OwnedText) (needle : String) :
    containsCaseInsensitiveBytes haystack needle =
      .ok (containsCaseInsensitiveAscii haystack.text needle) := by
  rw [containsCaseInsensitiveBytes, containsCaseInsensitiveAscii]
  by_cases empty : needle.isEmpty = true
  · rw [if_pos empty, String.isEmpty_iff.mp empty]
    refine congrArg Except.ok ?_
    split
    · exact (decide_eq_true List.nil_infix).symm
    · exact (decide_eq_true List.nil_infix).symm
  · rw [if_neg empty]
    dsimp only
    rw [isAsciiBytes_asBytes]
    by_cases ascii : (haystack.text.toList.all fun letter => decide (letter.toNat < 128)) = true
    · have letters : ∀ letter ∈ haystack.text.toList, letter.toNat < 128 := fun letter placed =>
        of_decide_eq_true (List.all_eq_true.mp ascii letter placed)
      rw [if_pos ascii, if_pos ascii]
      by_cases long : (asBytes haystack.text).length < (asBytes needle).length
      · rw [if_pos long]
        refine congrArg Except.ok (decide_eq_false ?_).symm
        rw [asciiLowercase, String.toList_ofList, ← any_window_iff letters]
        rintro ⟨start, inside, _⟩
        rw [asBytes, flatMap_utf8EncodeChar_ascii letters, List.length_map, asBytes] at long
        omega
      · rw [if_neg long, anyM_windowMatches letters long]
    · rw [if_neg ascii, if_neg ascii]

/-- The search of the filter finds a needle exactly in the texts whose lowercase
form contains it, and no window reaches out of the text. -/
theorem folded_search_exact [Host] (lowercaseAscii : ∀ text : String,
      (text.toList.all fun letter => decide (letter.toNat < 128)) = true →
        Host.toLowercase text = asciiLowercase text)
    (haystack : OwnedText) (needle : String) :
    containsCaseInsensitiveBytes haystack needle =
      .ok (decide (needle.toList <:+: (Host.toLowercase haystack.text).toList)) := by
  rw [containsCaseInsensitiveBytes_eq, containsCaseInsensitiveAscii]
  split
  · next ascii => rw [lowercaseAscii haystack.text ascii]
  · rfl

theorem folded_search_exact_readme :
    @containsCaseInsensitiveBytes asciiHost ⟨"The README", by decide⟩ "readme" = .ok true :=
  (@folded_search_exact asciiHost (fun _ _ => rfl) ⟨"The README", by decide⟩ "readme").trans
    (congrArg Except.ok (decide_eq_true ⟨"the ".toList, [], by decide +kernel⟩))

end LocalHold
