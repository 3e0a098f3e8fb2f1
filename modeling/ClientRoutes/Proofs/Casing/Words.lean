import ClientRoutes.Casing
import ClientRoutes.Proofs.Text.Letter

/-
  Words, read from the left.

  `words` puts a text together from the right, one character at a time: the
  character is dropped, is a word of its own, or joins the word behind it. Here a
  text is taken apart from the left. Where the last character of a front does not
  join the word behind it, the words of a text are those of the front and those
  of the rest.

  What is proved:
    1. `words_cons` — the three ways a character goes.
    2. `words_append`, `words_intercalate` — the words of a text with breaks in it.
    3. `words_of_startsWord` — the first word begins where the text does.
    4. `mem_of_mem_words` — a word holds characters of the text.
-/

namespace ClientRoutes.Casing

open Text Text.Letter

/-- The last character of a front does not join the word behind it. -/
def Breaks (s t : List Char) : Prop :=
  ∀ c ∈ s.getLast?, ∀ w ∈ (words t).head?, startsWord t = true → joins (kind c) w = false

theorem words_cons (c : Char) (s : List Char) :
    (isWordChar c = false ∧ words (c :: s) = words s) ∨
      (isWordChar c = true ∧ Breaks [c] s ∧ words (c :: s) = [c] :: words s) ∨
      (isWordChar c = true ∧ ∃ w ws, words s = w :: ws ∧ startsWord s = true ∧
        joins (kind c) w = true ∧ words (c :: s) = (c :: w) :: ws) := by
  rw [words]
  split
  · next hc =>
    right
    cases hw : words s with
    | nil => exact .inl ⟨hc, by simp [Breaks, hw], rfl⟩
    | cons w ws =>
      dsimp only
      split
      · next hjoins =>
        rw [Bool.and_eq_true] at hjoins
        exact .inr ⟨hc, w, ws, rfl, hjoins.1, hjoins.2, rfl⟩
      · next hjoins =>
        refine .inl ⟨hc, ?_, rfl⟩
        intro d hd v hv hstarts
        obtain rfl : c = d := by simpa using hd
        obtain rfl : w = v := by simpa [hw] using hv
        simpa [hstarts] using hjoins
  · next hc => exact .inl ⟨by simpa using hc, rfl⟩

theorem words_eq_nil_iff {s : List Char} : words s = [] ↔ ∀ c ∈ s, isWordChar c = false := by
  induction s with
  | nil => simp [words]
  | cons c s ih =>
    rcases words_cons c s with ⟨hc, h⟩ | ⟨hc, -, h⟩ | ⟨hc, w, ws, -, -, -, h⟩ <;> simp [h, hc, ih]

/-- The first word of a text that starts with a word character starts with it. -/
theorem words_of_startsWord {s : List Char} (h : startsWord s = true) :
    ∃ c rest w ws, s = c :: rest ∧ words s = (c :: w) :: ws := by
  cases s with
  | nil => cases h
  | cons c rest =>
    have hc : isWordChar c = true := h
    rcases words_cons c rest with ⟨hnot, -⟩ | ⟨-, -, hw⟩ | ⟨-, w, ws, -, -, -, hw⟩
    · rw [hc] at hnot
      cases hnot
    · exact ⟨c, rest, [], words rest, rfl, hw⟩
    · exact ⟨c, rest, w, ws, rfl, hw⟩

theorem startsWord_append {s : List Char} (hs : s ≠ []) (t : List Char) :
    startsWord (s ++ t) = startsWord s := by
  rw [startsWord, startsWord, List.head?_append_of_ne_nil _ hs]

theorem words_append {s t : List Char} (h : Breaks s t) : words (s ++ t) = words s ++ words t := by
  induction s with
  | nil => rfl
  | cons c s ih =>
    by_cases hnil : s = []
    · -- The front is one character, so it goes the second way at most.
      subst hnil
      have hone : words [c] = if isWordChar c then [[c]] else [] := rfl
      rcases words_cons c t with ⟨hc, hw⟩ | ⟨hc, -, hw⟩ | ⟨-, w, ws, hw, hstarts, hjoins, -⟩
      · simp [hone, hc, hw]
      · simp [hone, hc, hw]
      · have hfalse := h c (by simp) w (by simp [hw]) hstarts
        rw [hjoins] at hfalse
        cases hfalse
    · have hbreaks : Breaks s t := by
        intro d hd
        apply h d
        rwa [List.getLast?_cons_of_ne_nil hnil]
      rw [List.cons_append, words, words, ih hbreaks, startsWord_append hnil]
      cases hw : words s with
      | cons w ws => split <;> [(dsimp only [List.cons_append]; split <;> rfl); rfl]
      | nil =>
        have hnot : startsWord s = false := by
          cases s with
          | nil => rfl
          | cons d rest => simp [startsWord, words_eq_nil_iff.1 hw d (by simp)]
        rw [hnot, List.nil_append]
        split
        · cases words t <;> rfl
        · rfl

/-- In front of a separator there is no word to be joined. -/
theorem breaks_separator {c : Char} (h : isWordChar c = false) (s t : List Char) :
    Breaks s (c :: t) := by
  intro d _ w _ hstarts
  have hc : isWordChar c = true := hstarts
  rw [h] at hc
  cases hc

/-- The words of parts that separators join are the words of the parts. -/
theorem words_intercalate {separator : Char} (h : isWordChar separator = false)
    (parts : List (List Char)) :
    words ([separator].intercalate parts) = parts.flatMap words := by
  induction parts with
  | nil => rfl
  | cons part parts ih =>
    by_cases hnil : parts = []
    · subst hnil
      simp
    · have hskip : ∀ t, words (separator :: t) = words t := by
        intro t
        rw [words, if_neg (by simp [h])]
      rw [List.intercalate_cons_of_ne_nil hnil, List.append_assoc, List.singleton_append,
        words_append (breaks_separator h part _), hskip, ih, List.flatMap_cons]

/-! ## The characters of a word -/

theorem mem_of_mem_words {s w : List Char} (h : w ∈ words s) {c : Char} (hc : c ∈ w) :
    c ∈ s ∧ isWordChar c = true := by
  have hflat : c ∈ (words s).flatten := List.mem_flatten.2 ⟨w, h, hc⟩
  rw [flatten_words] at hflat
  exact List.mem_filter.1 hflat

end ClientRoutes.Casing
