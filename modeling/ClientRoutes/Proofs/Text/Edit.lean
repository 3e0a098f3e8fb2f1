import ClientRoutes.Text.Edit
import Mathlib.Data.List.Basic

/-
  Laws of the edits of texts.

  What is proved:
    1. `stripPrefix?_eq_some_iff`, `stripSuffix?_eq_some_iff` — what precedes
       and what follows an end of a text.
    2. `split_append`, `split_intercalate`, `split_inj` — splitting undoes joining,
       and joining undoes splitting.
    3. `mem_of_mem_split`, `mem_of_mem_intercalate` — the characters of parts.
    4. `containsChars_eq_true_iff` — finding a text inside another one.
-/

namespace ClientRoutes.Text

/-! ## Ends of a text -/

theorem stripPrefix?_eq_some_iff (front s rest : String) :
    stripPrefix? front s = some rest ↔ s = front ++ rest := by
  unfold stripPrefix?
  rw [Option.map_eq_some_iff]
  constructor
  · rintro ⟨cs, hcs, rfl⟩
    apply String.toList_injective
    rw [String.toList_append, String.toList_ofList, List.isPrefixOf?_eq_some_iff_append_eq.1 hcs]
  · rintro rfl
    refine ⟨rest.toList, ?_, String.ofList_toList⟩
    rw [List.isPrefixOf?_eq_some_iff_append_eq, String.toList_append]

theorem stripSuffix?_eq_some_iff (tail s front : String) :
    stripSuffix? tail s = some front ↔ s = front ++ tail := by
  unfold stripSuffix?
  rw [Option.map_eq_some_iff]
  constructor
  · rintro ⟨cs, hcs, rfl⟩
    apply String.toList_injective
    rw [String.toList_append, String.toList_ofList, List.isSuffixOf?_eq_some_iff_append_eq.1 hcs]
  · rintro rfl
    refine ⟨front.toList, ?_, String.ofList_toList⟩
    rw [List.isSuffixOf?_eq_some_iff_append_eq, String.toList_append]

/-! ## Parts of a text -/

theorem split_eq_splitOn (separator : Char) (s : List Char) :
    split separator s = s.splitOn separator := by
  induction s with
  | nil => rfl
  | cons c rest ih =>
    obtain ⟨part, parts, hparts⟩ :=
      List.exists_cons_of_ne_nil (List.splitOn_ne_nil separator rest)
    rw [List.splitOn_cons_eq_if_modifyHead, split, ih, hparts]
    by_cases h : c = separator <;> simp [h]

theorem split_append (separator : Char) (s t : List Char) :
    split separator (s ++ separator :: t) = split separator s ++ split separator t := by
  simp only [split_eq_splitOn]
  exact List.splitOn_append_cons_self s t

theorem split_intercalate {separator : Char} {parts : List (List Char)} (hne : parts ≠ [])
    (h : ∀ part ∈ parts, separator ∉ part) :
    split separator ([separator].intercalate parts) = parts := by
  rw [split_eq_splitOn]
  exact List.splitOn_intercalate separator h hne

/-- What stands before the first separator goes to the first part. -/
theorem split_append_of_not_mem {separator : Char} {front : List Char} (h : separator ∉ front)
    (s : List Char) :
    split separator (front ++ s) = (split separator s).modifyHead (front ++ ·) := by
  induction front with
  | nil => exact (congrFun List.modifyHead_id _).symm
  | cons c front ih =>
    obtain ⟨hc, hfront⟩ := not_or.1 (List.mem_cons.not.1 h)
    rw [List.cons_append, split_eq_splitOn, List.splitOn_cons_eq_if_modifyHead,
      ← split_eq_splitOn, if_neg (by simpa using Ne.symm hc), ih hfront, List.modifyHead_modifyHead]
    rfl

theorem split_of_not_mem {separator : Char} {s : List Char} (h : separator ∉ s) :
    split separator s = [s] := by
  have happend := split_append_of_not_mem h []
  rwa [split, List.modifyHead_cons, List.append_nil] at happend

theorem split_intercalate_flatMap {separator : Char} {parts : List (List Char)} (hne : parts ≠ []) :
    split separator ([separator].intercalate parts) = parts.flatMap (split separator) := by
  induction parts with
  | nil => exact absurd rfl hne
  | cons part parts ih =>
    by_cases hnil : parts = []
    · subst hnil
      simp
    · rw [List.intercalate_cons_of_ne_nil hnil, List.append_assoc, List.singleton_append,
        split_append, ih hnil, List.flatMap_cons]

theorem split_inj {separator : Char} {s t : List Char} :
    split separator s = split separator t ↔ s = t := by
  have hjoin : ∀ r : List Char, [separator].intercalate (split separator r) = r := by
    intro r
    rw [split_eq_splitOn]
    exact List.intercalate_splitOn separator
  constructor
  · intro h
    rw [← hjoin s, h, hjoin t]
  · rintro rfl
    rfl

theorem mem_of_mem_split {separator : Char} {s part : List Char} (h : part ∈ split separator s)
    {c : Char} (hc : c ∈ part) : c ∈ s ∧ c ≠ separator := by
  induction s generalizing part with
  | nil =>
    obtain rfl := List.mem_singleton.1 h
    cases hc
  | cons d rest ih =>
    rw [split] at h
    by_cases hd : d = separator
    · rw [if_pos hd] at h
      rcases List.mem_cons.1 h with rfl | h
      · cases hc
      · obtain ⟨hmem, hne⟩ := ih h hc
        exact ⟨List.mem_cons_of_mem _ hmem, hne⟩
    · rw [if_neg hd] at h
      obtain ⟨first, parts, hparts⟩ := List.exists_cons_of_ne_nil (split_ne_nil separator rest)
      rw [hparts] at h ih
      rcases List.mem_cons.1 h with rfl | h
      · rcases List.mem_cons.1 hc with rfl | hc
        · exact ⟨List.mem_cons_self, hd⟩
        · obtain ⟨hmem, hne⟩ := ih List.mem_cons_self hc
          exact ⟨List.mem_cons_of_mem _ hmem, hne⟩
      · obtain ⟨hmem, hne⟩ := ih (List.mem_cons_of_mem _ h) hc
        exact ⟨List.mem_cons_of_mem _ hmem, hne⟩

theorem mem_of_mem_intercalate {separator : List Char} {c : Char} {parts : List (List Char)}
    (h : c ∈ separator.intercalate parts) : c ∈ separator ∨ ∃ part ∈ parts, c ∈ part := by
  induction parts with
  | nil => cases h
  | cons part parts ih =>
    by_cases hnil : parts = []
    · subst hnil
      rw [List.intercalate_singleton] at h
      exact .inr ⟨part, List.mem_cons_self, h⟩
    · rw [List.intercalate_cons_of_ne_nil hnil, List.append_assoc] at h
      rcases List.mem_append.1 h with h | h
      · exact .inr ⟨part, List.mem_cons_self, h⟩
      · rcases List.mem_append.1 h with h | h
        · exact .inl h
        · rcases ih h with h | ⟨part', hpart', hc⟩
          · exact .inl h
          · exact .inr ⟨part', List.mem_cons_of_mem _ hpart', hc⟩

/-! ## Inside a text -/

theorem containsChars_eq_true_iff {needle s : List Char} :
    containsChars needle s = true ↔ needle <:+: s := by
  induction s with
  | nil => rw [containsChars, List.isEmpty_iff, List.infix_nil]
  | cons c s ih => rw [containsChars, Bool.or_eq_true, List.isPrefixOf_iff_prefix, ih, List.infix_cons_iff]

end ClientRoutes.Text
