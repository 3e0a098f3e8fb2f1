import ClientRoutes.Proofs.Casing.Recasing
import ClientRoutes.Text.Blank

/-
  The characters of a cased name.

  Casing keeps the word characters of a text and drops all others, but it also
  rewrites what it keeps, letter by letter through the tables. A blank or a mark
  never comes out of that: none is a word character, and the tables lead past
  all of them.

  What is proved:
    1. `isName_capitalized`, `isName_camelChars` — a text in Pascal case or in
       camel case holds neither blanks nor marks.
-/

namespace ClientRoutes.Casing

open Text Text.Letter

/-- Whether a character is punctuation of ASCII, other than `$` and `_`. -/
def isMark (c : Char) : Bool :=
  let n := c.toNat
  (33 ≤ n && n ≤ 47 && n != 36) || (58 ≤ n && n ≤ 64) || (91 ≤ n && n ≤ 96 && n != 95) ||
    (123 ≤ n && n ≤ 126)

/-- Whether a character may be part of a name. -/
def isNameChar (c : Char) : Bool := !isBlank c && !isMark c

/-- A text of one name, which may be empty. -/
def IsName (s : List Char) : Prop := ∀ c ∈ s, isNameChar c = true

instance (s : List Char) : Decidable (IsName s) :=
  List.decidableBAll (fun c : Char => isNameChar c = true) s

theorem isName_append {s t : List Char} : IsName (s ++ t) ↔ IsName s ∧ IsName t :=
  List.forall_mem_append

/-! ## Letter by letter -/

/-- The code points of blanks and marks. -/
def separators : List Nat := [
  9, 10, 11, 12, 13, 32, 0x85, 0xA0, 0x1680, 0x2000, 0x2001, 0x2002, 0x2003, 0x2004, 0x2005,
  0x2006, 0x2007, 0x2008, 0x2009, 0x200A, 0x2028, 0x2029, 0x202F, 0x205F, 0x3000,
  33, 34, 35, 37, 38, 39, 40, 41, 42, 43, 44, 45, 46, 47, 58, 59, 60, 61, 62, 63, 64,
  91, 92, 93, 94, 96, 123, 124, 125, 126]

theorem isNameChar_of_not_mem {c : Char} (h : c.toNat ∉ separators) : isNameChar c = true := by
  simp only [separators, List.mem_cons, List.not_mem_nil, or_false, not_or] at h
  simp only [isNameChar, isBlank, isMark, Bool.and_eq_true, Bool.not_eq_true', Bool.or_eq_false_iff,
    Bool.and_eq_false_iff, decide_eq_false_iff_not, beq_eq_false_iff_ne, bne_eq_false_iff_eq]
  omega

theorem not_mem_separators {c : Char} (hc : isWordChar c = true) : c.toNat ∉ separators := by
  have hnone : ∀ n ∈ separators, isWordChar (Char.ofNat n) = false := by decide +kernel
  intro hm
  have hfalse := hnone _ hm
  rw [Char.ofNat_toNat, hc] at hfalse
  cases hfalse

theorem isNameChar_of_isWordChar {c : Char} (hc : isWordChar c = true) : isNameChar c = true :=
  isNameChar_of_not_mem (not_mem_separators hc)

/-- In ASCII the other case of a word character is a word character. -/
theorem isWordChar_case {c : Char} (hascii : c.toNat < 128) (hc : isWordChar c = true) :
    isWordChar c.toUpper = true ∧ isWordChar c.toLower = true :=
  ascii_forall
    (p := fun c => isWordChar c = true → isWordChar c.toUpper = true ∧ isWordChar c.toLower = true)
    (by decide +kernel) hascii hc

theorem isNameChar_of_mem_upper {c d : Char} (hc : isWordChar c = true) (hd : d ∈ upper c) :
    isNameChar d = true := by
  by_cases hascii : c.toNat < 128
  · rw [(asciiCase hascii).upper_eq, List.mem_singleton] at hd
    rw [hd]
    exact isNameChar_of_isWordChar (isWordChar_case hascii hc).1
  · exact isNameChar_of_not_mem <| toNat_not_mem_of_mem (by decide) (by decide +kernel)
      (by decide +kernel) (Nat.le_of_not_lt hascii) (not_mem_separators hc) hd

theorem isNameChar_of_mem_lower {c d : Char} (hc : isWordChar c = true) (hd : d ∈ lower c) :
    isNameChar d = true := by
  by_cases hascii : c.toNat < 128
  · rw [(asciiCase hascii).lower_eq, List.mem_singleton] at hd
    rw [hd]
    exact isNameChar_of_isWordChar (isWordChar_case hascii hc).2
  · exact isNameChar_of_not_mem <| toNat_not_mem_of_mem (by decide) (by decide +kernel)
      (by decide +kernel) (Nat.le_of_not_lt hascii) (not_mem_separators hc) hd

/-! ## Word by word -/

theorem isName_lowerText {w : List Char} (hw : ∀ c ∈ w, isWordChar c = true) :
    IsName (lowerText w) := by
  intro d hd
  obtain ⟨c, hc, hdc⟩ := List.mem_flatMap.1 hd
  exact isNameChar_of_mem_lower (hw c hc) hdc

theorem isName_lowerWord {w : List Char} (hw : ∀ c ∈ w, isWordChar c = true) :
    IsName (lowerWord w) := by
  unfold lowerWord
  split
  · next c rest h =>
    -- All but the closing sigma is lowered letter by letter.
    have hfront : ∀ d ∈ rest.reverse ++ [c], isWordChar d = true := by
      intro d hd
      apply hw
      rw [← List.mem_reverse, h]
      simp only [List.mem_append, List.mem_reverse, List.mem_singleton] at hd
      simp only [List.mem_cons]
      tauto
    exact isName_append.2 ⟨isName_lowerText hfront, by decide⟩
  · exact isName_lowerText hw

theorem isName_capitalize {w : List Char} (hw : ∀ c ∈ w, isWordChar c = true) :
    IsName (capitalize w) := by
  cases w with
  | nil => exact List.forall_mem_nil _
  | cons c rest =>
    obtain ⟨hc, hrest⟩ := List.forall_mem_cons.1 hw
    exact isName_append.2 ⟨fun d hd => isNameChar_of_mem_upper hc hd, isName_lowerText hrest⟩

theorem isName_flatMap_capitalize {ws : List (List Char)}
    (hws : ∀ w ∈ ws, ∀ c ∈ w, isWordChar c = true) : IsName (ws.flatMap capitalize) := by
  intro d hd
  obtain ⟨w, hw, hdw⟩ := List.mem_flatMap.1 hd
  exact isName_capitalize (hws w hw) d hdw

theorem isName_capitalized (s : List Char) : IsName (capitalized s) :=
  isName_flatMap_capitalize fun _ hw _ hc => (mem_of_mem_words hw hc).2

theorem isName_camelChars (s : List Char) : IsName (camelChars s) := by
  have hwords : ∀ w ∈ words s, ∀ c ∈ w, isWordChar c = true :=
    fun _ hw _ hc => (mem_of_mem_words hw hc).2
  unfold camelChars
  cases h : words s with
  | nil => exact List.forall_mem_nil _
  | cons w ws =>
    rw [h] at hwords
    obtain ⟨hw, hws⟩ := List.forall_mem_cons.1 hwords
    exact isName_append.2 ⟨isName_lowerWord hw, isName_flatMap_capitalize hws⟩

end ClientRoutes.Casing
