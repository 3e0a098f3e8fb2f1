import ClientRoutes.Proofs.Text.Edit

/-
  Replacing a pattern in a text.

  Occurrences are replaced from left to right. A character that is no part of the
  pattern is never inside an occurrence, so the text can be cut there: what stands
  on one side is replaced without regard to the other.

  What is proved:
    1. `replaceFrom_append_cons` — a text is cut at a character that is no part of
       the pattern.
    2. `replaceFrom_append_right` — a tail without such parts stays.
    3. `replaceFrom_eq_or` — a text stays as it is or gets the replacement.
    4. `split_replaceFrom` — the parts of a text are replaced one by one.
-/

namespace ClientRoutes.Text

section
variable {pattern replacement : List Char} {c : Char}

theorem isPrefixOf_append_cons (hc : c ∉ pattern) (s t : List Char) :
    pattern.isPrefixOf (s ++ c :: t) = pattern.isPrefixOf s := by
  rw [Bool.eq_iff_iff, List.isPrefixOf_iff_prefix, List.isPrefixOf_iff_prefix]
  constructor
  · rintro ⟨rest, hrest⟩
    rcases List.append_eq_append_iff.1 hrest with ⟨as, hs, -⟩ | ⟨bs, hpattern, hbs⟩
    · exact ⟨as, hs.symm⟩
    · -- The pattern would reach over the character.
      cases bs with
      | nil => exact ⟨[], by rw [hpattern, List.append_nil, List.append_nil]⟩
      | cons b bs =>
        obtain ⟨rfl, -⟩ := List.cons.inj hbs
        exact absurd (by rw [hpattern]; simp) hc
  · exact fun h => h.trans (List.prefix_append s _)

theorem replaceFrom_append_cons (hne : pattern ≠ []) (hc : c ∉ pattern) {skipped : Nat}
    {s : List Char} (hle : skipped ≤ s.length) (t : List Char) :
    replaceFrom pattern replacement skipped (s ++ c :: t) =
      replaceFrom pattern replacement skipped s ++ c :: replaceFrom pattern replacement 0 t := by
  -- What is passed over belongs to an occurrence, so it ends before the character.
  induction s generalizing skipped with
  | nil =>
    obtain rfl := Nat.le_zero.1 hle
    have hnot : pattern.isPrefixOf (c :: t) = false := by
      have h := isPrefixOf_append_cons hc [] t
      rw [List.nil_append] at h
      rw [h]
      cases pattern with
      | nil => exact absurd rfl hne
      | cons d pattern => rfl
    rw [List.nil_append, replaceFrom.eq_3, hnot]
    rfl
  | cons d s ih =>
    cases skipped with
    | succ skipped => exact ih (Nat.le_of_succ_le_succ hle)
    | zero =>
      have hsame := isPrefixOf_append_cons hc (d :: s) t
      rw [List.cons_append] at hsame
      rw [List.cons_append, replaceFrom, replaceFrom, hsame]
      by_cases hprefix : pattern.isPrefixOf (d :: s) = true
      · have hlength := (List.isPrefixOf_iff_prefix.1 hprefix).length_le
        rw [List.length_cons] at hlength
        rw [if_pos hprefix, if_pos hprefix, ih (by omega), List.append_assoc]
      · rw [if_neg hprefix, if_neg hprefix, ih (Nat.zero_le _), List.cons_append]

theorem replaceFrom_append_right (hne : pattern ≠ []) (s : List Char) {t : List Char}
    (ht : ∀ c ∈ t, c ∉ pattern) :
    replaceFrom pattern replacement 0 (s ++ t) = replaceFrom pattern replacement 0 s ++ t := by
  induction t generalizing s with
  | nil => rw [List.append_nil, List.append_nil]
  | cons c t ih =>
    obtain ⟨hc, ht⟩ := List.forall_mem_cons.1 ht
    have hrest := ih [] ht
    rw [List.nil_append] at hrest
    rw [replaceFrom_append_cons hne hc (Nat.zero_le _), hrest]
    rfl

/-- A text without parts of the pattern stays as it is. -/
theorem replaceFrom_of_forall (hne : pattern ≠ []) {s : List Char} (hs : ∀ c ∈ s, c ∉ pattern) :
    replaceFrom pattern replacement 0 s = s :=
  replaceFrom_append_right hne [] hs

theorem mem_of_mem_replaceFrom {skipped : Nat} {s : List Char}
    (h : c ∈ replaceFrom pattern replacement skipped s) : c ∈ s ∨ c ∈ replacement := by
  induction s generalizing skipped with
  | nil => cases skipped <;> cases h
  | cons d s ih =>
    cases skipped with
    | succ skipped => exact (ih h).imp_left (List.mem_cons_of_mem d)
    | zero =>
      rw [replaceFrom] at h
      split at h
      · rcases List.mem_append.1 h with h | h
        · exact .inr h
        · exact (ih h).imp_left (List.mem_cons_of_mem d)
      · rcases List.mem_cons.1 h with rfl | h
        · exact .inl List.mem_cons_self
        · exact (ih h).imp_left (List.mem_cons_of_mem d)

/-- Where something is replaced, the replacement stands. -/
theorem replaceFrom_eq_or (skipped : Nat) (s : List Char) :
    replaceFrom pattern replacement skipped s = s.drop skipped ∨
      replacement ⊆ replaceFrom pattern replacement skipped s := by
  induction s generalizing skipped with
  | nil => cases skipped <;> exact .inl rfl
  | cons d s ih =>
    cases skipped with
    | succ skipped => exact ih skipped
    | zero =>
      rw [replaceFrom]
      split
      · exact .inr (List.subset_append_left _ _)
      · rcases ih 0 with hsame | hmem
        · exact .inl (congrArg (d :: ·) hsame)
        · exact .inr (List.subset_cons_of_subset d hmem)

/-! ## Part by part -/

variable {separator : Char}

theorem replaceFrom_intercalate (hne : pattern ≠ []) (h : separator ∉ pattern)
    (parts : List (List Char)) :
    replaceFrom pattern replacement 0 ([separator].intercalate parts) =
      [separator].intercalate (parts.map (replaceFrom pattern replacement 0)) := by
  induction parts with
  | nil => rfl
  | cons part parts ih =>
    by_cases hnil : parts = []
    · subst hnil
      rw [List.map_singleton, List.intercalate_singleton, List.intercalate_singleton]
    · rw [List.map_cons, List.intercalate_cons_of_ne_nil hnil,
        List.intercalate_cons_of_ne_nil (by simpa using hnil), List.append_assoc,
        List.append_assoc, List.singleton_append, List.singleton_append,
        replaceFrom_append_cons hne h (Nat.zero_le _), ih]

theorem split_replaceFrom (hne : pattern ≠ []) (h : separator ∉ pattern)
    (h' : separator ∉ replacement) (s : List Char) :
    split separator (replaceFrom pattern replacement 0 s) =
      (split separator s).map (replaceFrom pattern replacement 0) := by
  have hjoin : [separator].intercalate (split separator s) = s := by
    rw [split_eq_splitOn]
    exact List.intercalate_splitOn separator
  have hnone : ∀ part ∈ (split separator s).map (replaceFrom pattern replacement 0),
      separator ∉ part := by
    intro part hpart hmem
    obtain ⟨part', hpart', rfl⟩ := List.mem_map.1 hpart
    rcases mem_of_mem_replaceFrom hmem with hmem | hmem
    · exact (mem_of_mem_split hpart' hmem).2 rfl
    · exact h' hmem
  calc split separator (replaceFrom pattern replacement 0 s)
      = split separator (replaceFrom pattern replacement 0
          ([separator].intercalate (split separator s))) := by rw [hjoin]
    _ = split separator ([separator].intercalate
          ((split separator s).map (replaceFrom pattern replacement 0))) := by
        rw [replaceFrom_intercalate hne h]
    _ = (split separator s).map (replaceFrom pattern replacement 0) :=
        split_intercalate (by simpa using split_ne_nil separator s) hnone

end

end ClientRoutes.Text
