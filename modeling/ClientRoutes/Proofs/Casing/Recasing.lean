import ClientRoutes.Proofs.Casing.Tokens
import Mathlib.Data.List.Chain

/-
  What is left of the words of a text when it is written in capitals.

  `pascalCase` keeps the words apart by their capitals only. A word of one letter
  is nothing but a capital, so two of them in a row are read back as one word;
  everything else of ASCII is read back as it was.

  What is proved:
    1. `capitalized_append` — casing goes word by word where a text breaks.
    2. `dees_capitalized`, `dees_camelChars` — casing keeps the letters `d`.
    3. `capitalized_flatten_iff` — words in capitals are read back unless two
       single letters meet.
    4. `camelCase_pascalCase_iff` — an ASCII name has the same camel case before
       and after it is written in Pascal case exactly if no two of its words in
       a row are single letters.
-/

namespace ClientRoutes.Casing

open Text Text.Letter

/-- The characters of a text in Pascal case. -/
def capitalized (s : List Char) : List Char := (words s).flatMap capitalize

/-- The characters of a text in camel case. -/
def camelChars (s : List Char) : List Char :=
  match words s with
  | [] => []
  | w :: ws => lowerWord w ++ ws.flatMap capitalize

theorem toList_pascalCase (s : String) : (pascalCase s).toList = capitalized s.toList :=
  String.toList_ofList

theorem toList_camelCase (s : String) : (camelCase s).toList = camelChars s.toList :=
  String.toList_ofList

theorem capitalized_append {s t : List Char} (h : Breaks s t) :
    capitalized (s ++ t) = capitalized s ++ capitalized t := by
  rw [capitalized, words_append h, List.flatMap_append]
  rfl

theorem camelChars_append {s t : List Char} (h : Breaks s t) (hs : words s ≠ []) :
    camelChars (s ++ t) = camelChars s ++ capitalized t := by
  rw [camelChars, camelChars, words_append h]
  cases hw : words s with
  | nil => exact absurd hw hs
  | cons w ws => simp [capitalized]

theorem words_eq_nil_of_camelChars {s : List Char} (h : camelChars s = []) : words s = [] := by
  cases hw : words s with
  | nil => rfl
  | cons w ws =>
    have hne : w ≠ [] := ne_nil_of_mem_words (s := s) (by simp [hw])
    rw [camelChars, hw] at h
    exact absurd (List.append_eq_nil_iff.1 h).1 (lowerWord_ne_nil hne)

/-! ## The letter d -/

theorem dees_capitalize (w : List Char) : dees (capitalize w) = dees w := by
  cases w with
  | nil => rfl
  | cons c rest => rw [capitalize, dees_append, dees_upper, dees_lowerText, dees_cons c rest]

theorem dees_flatMap_capitalize (ws : List (List Char)) :
    dees (ws.flatMap capitalize) = dees ws.flatten := by
  induction ws with
  | nil => rfl
  | cons w ws ih =>
    rw [List.flatMap_cons, List.flatten_cons, dees_append, dees_append, dees_capitalize, ih]

/-- A `d` is part of a word. -/
theorem dees_flatten_words (s : List Char) : dees (words s).flatten = dees s := by
  have hword : ∀ c, isDee c = true → isWordChar c = true := by
    intro c hc
    rw [isDee, Bool.or_eq_true, beq_iff_eq, beq_iff_eq] at hc
    rcases hc with rfl | rfl <;> decide
  rw [flatten_words, dees, dees, List.countP_filter]
  apply List.countP_congr
  intro c _
  rw [Bool.and_eq_true]
  exact ⟨fun h => h.1, fun h => ⟨h, hword c h⟩⟩

theorem dees_capitalized (s : List Char) : dees (capitalized s) = dees s := by
  rw [capitalized, dees_flatMap_capitalize, dees_flatten_words]

theorem dees_camelChars (s : List Char) : dees (camelChars s) = dees s := by
  rw [← dees_flatten_words s, camelChars]
  cases words s with
  | nil => rfl
  | cons w ws =>
    rw [List.flatten_cons, dees_append, dees_append, dees_lowerWord, dees_flatMap_capitalize]

/-! ## Words in capitals -/

/-- A word as `capitalize` leaves it: digits, or a capital and small letters. -/
inductive IsCapital : List Char → Prop
  | digits {w : List Char} (hne : w ≠ []) (hw : ∀ c ∈ w, kind c = .digit) : IsCapital w
  | letters {u : Char} {l : List Char} (hascii : IsAscii (u :: l)) (hu : kind u = .upper)
      (hl : ∀ c ∈ l, kind c = .lower) : IsCapital (u :: l)

/-- A word of one letter. -/
def IsSingle (w : List Char) : Prop := ∃ c, w = [c] ∧ (kind c).isCased = true

/-- Two words that are not both of one letter. -/
def Apart (v w : List Char) : Prop := ¬(IsSingle v ∧ IsSingle w)

theorem capitalize_of_ascii {c : Char} {w : List Char} (h : IsAscii (c :: w)) :
    capitalize (c :: w) = c.toUpper :: w.map Char.toLower := by
  obtain ⟨hc, hw⟩ := isAscii_cons.1 h
  rw [capitalize, (asciiCase hc).upper_eq, lowerText_of_ascii hw]
  rfl

theorem IsCapital.ne_nil {w : List Char} (h : IsCapital w) : w ≠ [] := by
  cases h with
  | digits hne => exact hne
  | letters => exact List.cons_ne_nil _ _

/-- No word in capitals begins with a small letter. -/
theorem IsCapital.kind_head {w : List Char} (h : IsCapital w) : ∀ c ∈ w.head?, kind c ≠ .lower := by
  intro c hc
  cases h with
  | digits _ hw => rw [hw c (List.mem_of_mem_head? hc)]; decide
  | letters _ hu _ =>
    obtain rfl := Option.some.inj hc
    rw [hu]; decide

theorem kind_head_flatten {cs : List (List Char)} (h : ∀ w ∈ cs, IsCapital w) :
    ∀ c ∈ cs.flatten.head?, kind c ≠ .lower := by
  cases cs with
  | nil => simp
  | cons w rest =>
    have hw := h w (by simp)
    rw [List.flatten_cons, List.head?_append_of_ne_nil _ hw.ne_nil]
    exact hw.kind_head

/-- A front that ends in a small letter breaks before everything but another one. -/
theorem breaks_of_lower {s t : List Char} (hs : ∀ c ∈ s.getLast?, kind c = .lower)
    (ht : ∀ c ∈ t.head?, kind c ≠ .lower) : Breaks s t := by
  intro c hc w hw hstarts
  obtain ⟨d, rest, v, vs, rfl, hwords⟩ := words_of_startsWord hstarts
  obtain rfl : d :: v = w := by simpa [hwords] using hw
  have hd : kind d ≠ .lower := ht d rfl
  rw [hs c hc]
  cases hk : kind d <;> simp_all [joins]

theorem capitalize_of_digits {w : List Char} (hw : ∀ c ∈ w, kind c = .digit) :
    capitalize w = w := by
  cases w with
  | nil => rfl
  | cons c rest =>
    obtain ⟨hc, hrest⟩ := List.forall_mem_cons.1 hw
    have hlower : lowerText rest = rest := by
      rw [lowerText, List.flatMap_congr fun d hd => lower_of_kind_digit (hrest d hd),
        List.flatMap_singleton']
    rw [capitalize, upper_of_kind_digit hc, hlower]
    rfl

theorem sort_eq_lower_iff {k : Kind} : sort k = .lower ↔ k.isCased = true := by
  cases k <;> simp [sort, Kind.isCased]

theorem sort_eq_digit_iff {k : Kind} : sort k = .digit ↔ k = .digit := by
  cases k <;> simp [sort]

/-- Digits in front of a text stay as they are, joined to the word behind them or
not. -/
theorem capitalized_digits_append {w : List Char} (hw : ∀ c ∈ w, kind c = .digit) (t : List Char) :
    capitalized (w ++ t) = w ++ capitalized t := by
  induction w with
  | nil => rfl
  | cons c w ih =>
    obtain ⟨hc, hrest⟩ := List.forall_mem_cons.1 hw
    rw [List.cons_append, List.cons_append, ← ih hrest]
    generalize w ++ t = s
    rcases words_cons c s with ⟨hnot, -⟩ | ⟨-, -, h⟩ | ⟨-, v, vs, hv, -, -, h⟩
    · simp [isWordChar, hc] at hnot
    · rw [capitalized, h, List.flatMap_cons, capitalize, upper_of_kind_digit hc]
      rfl
    · -- The digit joins a word of digits, and casing leaves both as they are.
      obtain ⟨k, hk⟩ := oneSort_of_mem_words (s := c :: s) (w := c :: v) (by simp [h])
      have hdigits : ∀ d ∈ c :: v, kind d = .digit := by
        intro d hd
        rw [← sort_eq_digit_iff, hk d hd, ← hk c (by simp), hc]
        rfl
      rw [capitalized, capitalized, h, hv, List.flatMap_cons, List.flatMap_cons,
        capitalize_of_digits hdigits, capitalize_of_digits (List.forall_mem_cons.1 hdigits).2]
      rfl

theorem words_of_lower {w : List Char} (hne : w ≠ []) (h : ∀ c ∈ w, kind c = .lower) :
    words w = [w] := by
  induction w with
  | nil => exact absurd rfl hne
  | cons c rest ih =>
    obtain ⟨hc, hrest⟩ := List.forall_mem_cons.1 h
    cases rest with
    | nil => simp [words, isWordChar, hc]
    | cons d rest =>
      have hd := hrest d (by simp)
      rw [words, ih (by simp) hrest]
      simp [isWordChar, startsWord, joins, hc, hd]

theorem words_of_capital {u : Char} {l : List Char} (hu : kind u = .upper)
    (hl : ∀ c ∈ l, kind c = .lower) : words (u :: l) = [u :: l] := by
  cases l with
  | nil => simp [words, isWordChar, hu]
  | cons c rest =>
    have hc := hl c (by simp)
    rw [words, words_of_lower (List.cons_ne_nil c rest) hl]
    simp [isWordChar, startsWord, joins, hu, hc]

theorem capitalized_of_isCapital {w : List Char} (h : IsCapital w) : capitalized w = w := by
  cases h with
  | digits _ hw => simpa [capitalized, words] using capitalized_digits_append hw []
  | @letters u l hascii hu hl =>
    obtain ⟨hfirst, hrest⟩ := isAscii_cons.1 hascii
    have hsmall : l.map Char.toLower = l.map id :=
      List.map_congr_left fun c hc => (asciiCase (hrest c hc)).toLower_eq (by simp [hl c hc])
    rw [capitalized, words_of_capital hu hl, List.flatMap_singleton, capitalize_of_ascii hascii,
      (asciiCase hfirst).toUpper_eq (by simp [hu]), hsmall, List.map_id]

/-- Two single letters in a row are read as one word. -/
theorem capitalized_pair_ne {u v : Char} {s : List Char} (hu : kind u = .upper)
    (hv : kind v = .upper) (hua : u.toNat < 128) (hva : v.toNat < 128)
    (hs : ∀ c ∈ s.head?, kind c ≠ .lower) :
    capitalized (u :: v :: s) ≠ u :: v :: s := by
  have hword : ∀ {c}, kind c = .upper → isWordChar c = true := fun h => by simp [isWordChar, h]
  -- No small letter follows the second capital, so the first one joins its word.
  have hjoined : ∃ r ws, words (u :: v :: s) = (u :: v :: r) :: ws := by
    have hrun : ∃ r ws, words (v :: s) = (v :: r) :: ws ∧ joins .upper (v :: r) = true := by
      rcases words_cons v s with ⟨hnot, -⟩ | ⟨-, -, h⟩ | ⟨-, w, ws, hw, hstarts, hjoins, h⟩
      · rw [hword hv] at hnot
        cases hnot
      · exact ⟨[], words s, h, by simp [joins, hv]⟩
      · obtain ⟨d, rest, x, xs, rfl, hwords⟩ := words_of_startsWord hstarts
        obtain ⟨rfl, rfl⟩ := List.cons.inj (hw.symm.trans hwords)
        refine ⟨d :: x, ws, h, ?_⟩
        have hd : kind d ≠ .lower := hs d rfl
        rw [hv] at hjoins
        cases hk : kind d <;> simp_all [joins]
    obtain ⟨r, ws, hwords, hjoins⟩ := hrun
    exact ⟨r, ws, by
      rw [words, hwords]
      simp [hword hu, startsWord, hword hv, hu, hjoins]⟩
  obtain ⟨r, ws, hwords⟩ := hjoined
  intro h
  rw [capitalized, hwords, List.flatMap_cons, capitalize, (asciiCase hua).upper_eq] at h
  have hlower : lowerText (v :: r) = v.toLower :: lowerText r := by
    rw [lowerText, List.flatMap_cons, (asciiCase hva).lower_eq]
    rfl
  rw [hlower] at h
  have hsame : v.toLower = v := (List.cons.inj (List.cons.inj h).2).1
  have hsmall : kind v.toLower = .lower := (asciiCase hva).kind_toLower (by rw [hv]; rfl)
  rw [hsame, hv] at hsmall
  cases hsmall

theorem IsCapital.kind_of_isSingle {w : List Char} (h : IsCapital w) (hs : IsSingle w) :
    ∃ u, w = [u] ∧ kind u = .upper ∧ u.toNat < 128 := by
  obtain ⟨u, rfl, hcased⟩ := hs
  cases h with
  | digits _ hw =>
    rw [hw u (by simp)] at hcased
    cases hcased
  | letters hascii hu _ => exact ⟨u, rfl, hu, hascii u (by simp)⟩

/-- A capital and small letters break before another word in capitals. -/
theorem breaks_of_small {u e : Char} {l : List Char} (hl : ∀ c ∈ e :: l, kind c = .lower)
    {cs : List (List Char)} (h : ∀ w ∈ cs, IsCapital w) : Breaks (u :: e :: l) cs.flatten := by
  refine breaks_of_lower (fun d hd => ?_) (kind_head_flatten h)
  rw [List.getLast?_cons_cons] at hd
  exact hl d (List.mem_of_mem_getLast? hd)

/-- A capital on its own breaks before everything but another one. -/
theorem breaks_of_not_isSingle {u : Char} (hu : kind u = .upper) {cs : List (List Char)}
    (h : ∀ w ∈ cs, IsCapital w) (hsingle : ∀ w ∈ cs.head?, ¬IsSingle w) :
    Breaks [u] cs.flatten := by
  intro c hc w hw hstarts
  obtain rfl : u = c := by simpa using hc
  rw [hu]
  cases cs with
  | nil => cases hstarts
  | cons v rest =>
    obtain ⟨hv, hrest⟩ := List.forall_mem_cons.1 h
    rw [List.flatten_cons] at hw hstarts
    cases hv with
    | digits hne hdigits =>
      obtain ⟨d, ds, x, xs, hd, hwords⟩ := words_of_startsWord hstarts
      obtain rfl : d :: x = w := by simpa [hwords] using hw
      have hkind : kind d = .digit := by
        apply hdigits d
        apply List.mem_of_mem_head?
        rw [← List.head?_append_of_ne_nil _ hne, hd]
        rfl
      simp [joins, hkind]
    | @letters u' l hascii hu' hl =>
      cases l with
      | nil => exact absurd ⟨u', rfl, by rw [hu']; rfl⟩ (hsingle [u'] rfl)
      | cons e l =>
        rw [words_append (breaks_of_small hl hrest), words_of_capital hu' hl] at hw
        obtain rfl : u' :: e :: l = w := by simpa using hw
        simp [joins, hu', hl e (by simp)]

theorem capitalized_append_flatten {w : List Char} (hw : IsCapital w) {cs : List (List Char)}
    (h : ∀ w ∈ cs, IsCapital w) (hapart : ∀ v ∈ cs.head?, Apart w v) :
    capitalized (w ++ cs.flatten) = w ++ capitalized cs.flatten := by
  cases hw with
  | digits _ hdigits => exact capitalized_digits_append hdigits _
  | @letters u l hascii hu hl =>
    have hbreaks : Breaks (u :: l) cs.flatten := by
      cases l with
      | nil =>
        refine breaks_of_not_isSingle hu h fun v hv hsingle => ?_
        exact hapart v hv ⟨⟨u, rfl, by rw [hu]; rfl⟩, hsingle⟩
      | cons e l => exact breaks_of_small hl h
    rw [capitalized_append hbreaks, capitalized_of_isCapital (.letters hascii hu hl)]

/-- Words in capitals are read back unless two single letters meet. -/
theorem capitalized_flatten_iff {cs : List (List Char)} (h : ∀ w ∈ cs, IsCapital w) :
    capitalized cs.flatten = cs.flatten ↔ cs.IsChain Apart := by
  induction cs with
  | nil => simp [capitalized, words]
  | cons w rest ih =>
    obtain ⟨hw, hrest⟩ := List.forall_mem_cons.1 h
    rw [List.flatten_cons, List.isChain_cons, ← ih hrest]
    by_cases hpair : ∀ v ∈ rest.head?, Apart w v
    · rw [capitalized_append_flatten hw hrest hpair, List.append_cancel_left_eq]
      exact (and_iff_right hpair).symm
    · refine iff_of_false ?_ fun hboth => hpair hboth.1
      -- Two single letters meet, and the text begins with both.
      obtain ⟨v, hv, hws, hvs⟩ : ∃ v ∈ rest.head?, IsSingle w ∧ IsSingle v := by
        simpa [Apart] using hpair
      obtain ⟨tail, rfl⟩ : ∃ tail, rest = v :: tail := List.head?_eq_some_iff.1 hv
      obtain ⟨hvcap, htail⟩ := List.forall_mem_cons.1 hrest
      obtain ⟨u, rfl, hu, hua⟩ := hw.kind_of_isSingle hws
      obtain ⟨u', rfl, hu', hua'⟩ := hvcap.kind_of_isSingle hvs
      exact capitalized_pair_ne hu hu' hua hua' (kind_head_flatten htail)

/-! ## ASCII names -/

theorem isAscii_of_mem_words {s w : List Char} (hs : IsAscii s) (hw : w ∈ words s) : IsAscii w :=
  fun c hc => hs c (mem_of_mem_words hw hc).1

/-- A word of ASCII is all letters or all digits. -/
theorem isCased_or_digit {s w : List Char} (hs : IsAscii s) (hw : w ∈ words s) :
    (∀ c ∈ w, (kind c).isCased = true) ∨ ∀ c ∈ w, kind c = .digit := by
  obtain ⟨k, hk⟩ := oneSort_of_mem_words hw
  have hsort : ∀ c ∈ w, sort (kind c) = .lower ∨ sort (kind c) = .digit := by
    intro c hc
    obtain ⟨hmem, hword⟩ := mem_of_mem_words hw hc
    have hne := (asciiCase (hs c hmem)).kind_ne
    cases hkind : kind c <;> simp_all [isWordChar, sort]
  obtain ⟨d, rest, rfl⟩ := List.exists_cons_of_ne_nil (ne_nil_of_mem_words hw)
  have hd := hk d (by simp)
  rcases hsort d (by simp) with hlower | hdigit
  · exact .inl fun c hc => sort_eq_lower_iff.1 ((hk c hc).trans (hd.symm.trans hlower))
  · exact .inr fun c hc => sort_eq_digit_iff.1 ((hk c hc).trans (hd.symm.trans hdigit))

theorem isSingle_cons_iff {c : Char} {w : List Char} (hc : (kind c).isCased = true) :
    IsSingle (c :: w) ↔ w = [] := by
  constructor
  · rintro ⟨d, hd, -⟩
    exact (List.cons.inj hd).2
  · rintro rfl
    exact ⟨c, rfl, hc⟩

theorem isAscii_capitalize {w : List Char} (h : IsAscii w) : IsAscii (capitalize w) := by
  cases w with
  | nil => exact h
  | cons c w =>
    obtain ⟨hc, hw⟩ := isAscii_cons.1 h
    rw [capitalize_of_ascii h]
    refine isAscii_cons.2 ⟨(asciiCase hc).toUpper_lt, fun d hd => ?_⟩
    obtain ⟨e, he, rfl⟩ := List.mem_map.1 hd
    exact (asciiCase (hw e he)).toLower_lt

/-- Capitalizing a word of ASCII leaves a word in capitals, of one letter if the
word is of one letter. -/
theorem isCapital_capitalize {s w : List Char} (hs : IsAscii s) (hw : w ∈ words s) :
    IsCapital (capitalize w) ∧ (IsSingle (capitalize w) ↔ IsSingle w) := by
  have hascii := isAscii_of_mem_words hs hw
  rcases isCased_or_digit hs hw with hcased | hdigits
  · obtain ⟨c, rest, rfl⟩ := List.exists_cons_of_ne_nil (ne_nil_of_mem_words hw)
    obtain ⟨hc, hrest⟩ := List.forall_mem_cons.1 hcased
    have hupper : kind c.toUpper = .upper := (asciiCase (hascii c (by simp))).kind_toUpper hc
    have hcap := isAscii_capitalize hascii
    rw [capitalize_of_ascii hascii] at hcap ⊢
    constructor
    · refine .letters hcap hupper fun d hd => ?_
      obtain ⟨e, he, rfl⟩ := List.mem_map.1 hd
      exact (asciiCase (hascii e (by simp [he]))).kind_toLower (hrest e he)
    · rw [isSingle_cons_iff hc, isSingle_cons_iff (by rw [hupper]; rfl), List.map_eq_nil_iff]
  · rw [capitalize_of_digits hdigits]
    exact ⟨.digits (ne_nil_of_mem_words hw) hdigits, Iff.rfl⟩

theorem isAscii_capitalized {s : List Char} (hs : IsAscii s) : IsAscii (capitalized s) := by
  intro c hc
  obtain ⟨w, hw, hcw⟩ := List.mem_flatMap.1 hc
  exact isAscii_capitalize (isAscii_of_mem_words hs hw) c hcw

theorem capitalized_eq_flatten (s : List Char) :
    capitalized s = ((words s).map capitalize).flatten := List.flatMap_def ..

theorem isCapital_of_mem_capitals {s : List Char} (hs : IsAscii s) :
    ∀ w ∈ (words s).map capitalize, IsCapital w := by
  intro w hw
  obtain ⟨v, hv, rfl⟩ := List.mem_map.1 hw
  exact (isCapital_capitalize hs hv).1

theorem capitalized_capitalized_iff {s : List Char} (hs : IsAscii s) :
    capitalized (capitalized s) = capitalized s ↔ (words s).IsChain Apart := by
  rw [capitalized_eq_flatten s, capitalized_flatten_iff (isCapital_of_mem_capitals hs),
    List.isChain_map]
  apply List.IsChain.iff_of_mem_imp
  intro v w hv hw
  rw [Apart, Apart, (isCapital_capitalize hs hv).2, (isCapital_capitalize hs hw).2]

theorem isWordChar_of_mem_capitalized {s : List Char} (hs : IsAscii s) :
    ∀ c ∈ capitalized s, isWordChar c = true := by
  intro c hc
  rw [capitalized_eq_flatten] at hc
  obtain ⟨w, hw, hcw⟩ := List.mem_flatten.1 hc
  cases isCapital_of_mem_capitals hs w hw with
  | digits _ hdigits => simp [isWordChar, hdigits c hcw]
  | letters _ hu hl =>
    rcases List.mem_cons.1 hcw with rfl | hcw
    · simp [isWordChar, hu]
    · simp [isWordChar, hl c hcw]

theorem map_toLower_capitalize {w : List Char} (h : IsAscii w) :
    (capitalize w).map Char.toLower = w.map Char.toLower := by
  cases w with
  | nil => rfl
  | cons c rest =>
    obtain ⟨hc, hrest⟩ := isAscii_cons.1 h
    rw [capitalize_of_ascii h, List.map_cons, List.map_cons, List.map_map,
      (asciiCase hc).toLower_toUpper]
    congr 1
    exact List.map_congr_left fun d hd => (asciiCase (hrest d hd)).toLower_toLower

/-- In small letters, Pascal case is nothing but the letters and digits of a name. -/
theorem lowerText_capitalized {s : List Char} (hs : IsAscii s) :
    lowerText (capitalized s) = (s.filter isWordChar).map Char.toLower := by
  have hword : ∀ w ∈ words s, (capitalize w).map Char.toLower = w.map Char.toLower :=
    fun w hw => map_toLower_capitalize (isAscii_of_mem_words hs hw)
  rw [lowerText_of_ascii (isAscii_capitalized hs), capitalized, List.map_flatMap, ← flatten_words,
    List.map_flatten, ← List.flatMap_def]
  exact List.flatMap_congr hword

/-- A text with its first letter in small. -/
def lowerHead : List Char → List Char
  | [] => []
  | c :: rest => c.toLower :: rest

/-- Camel case is Pascal case with its first letter in small. -/
theorem camelChars_of_ascii {s : List Char} (hs : IsAscii s) :
    camelChars s = lowerHead (capitalized s) := by
  cases hw : words s with
  | nil => rw [camelChars, capitalized, hw]; rfl
  | cons w ws =>
    have hmem : w ∈ words s := by simp [hw]
    have hascii := isAscii_of_mem_words hs hmem
    obtain ⟨c, rest, rfl⟩ := List.exists_cons_of_ne_nil (ne_nil_of_mem_words hmem)
    have hc : c.toUpper.toLower = c.toLower := (asciiCase (hascii c (by simp))).toLower_toUpper
    calc camelChars s
        = lowerWord (c :: rest) ++ ws.flatMap capitalize := by rw [camelChars, hw]
      _ = c.toLower :: (rest.map Char.toLower ++ ws.flatMap capitalize) := by
          rw [lowerWord_of_ascii hascii, lowerText_of_ascii hascii]; rfl
      _ = lowerHead (capitalize (c :: rest) ++ ws.flatMap capitalize) := by
          rw [capitalize_of_ascii hascii, List.cons_append, lowerHead, hc]
      _ = lowerHead (capitalized s) := by rw [capitalized, hw, List.flatMap_cons]

theorem toUpper_head_capitalized {s : List Char} (hs : IsAscii s) :
    ∀ c ∈ (capitalized s).head?, c.toLower.toUpper = c := by
  intro c hc
  rw [capitalized] at hc
  cases hw : words s with
  | nil => simp [hw] at hc
  | cons w ws =>
    have hmem : w ∈ words s := by simp [hw]
    have hascii := isAscii_of_mem_words hs hmem
    obtain ⟨d, rest, rfl⟩ := List.exists_cons_of_ne_nil (ne_nil_of_mem_words hmem)
    rw [hw, List.flatMap_cons, capitalize_of_ascii hascii] at hc
    obtain rfl : d.toUpper = c := by simpa using hc
    have hcase := asciiCase (hascii d (by simp))
    rw [hcase.toLower_toUpper, hcase.toUpper_toLower]

theorem lowerHead_inj {s t : List Char} (hs : ∀ c ∈ s.head?, c.toLower.toUpper = c)
    (ht : ∀ c ∈ t.head?, c.toLower.toUpper = c) (h : lowerHead s = lowerHead t) : s = t := by
  cases s with
  | nil =>
    cases t with
    | nil => rfl
    | cons d t => cases h
  | cons c s =>
    cases t with
    | nil => cases h
    | cons d t =>
      obtain ⟨hhead, rfl⟩ := List.cons.inj h
      rw [← hs c rfl, ← ht d rfl, hhead]

/-- A name of ASCII has the same camel case before and after it is written in
Pascal case, exactly if no two of its words in a row are single letters. -/
theorem camelCase_pascalCase_iff {s : String} (hs : IsAscii s.toList) :
    camelCase (pascalCase s) = camelCase s ↔ (words s.toList).IsChain Apart := by
  have hcapital := isAscii_capitalized hs
  rw [← String.toList_inj, toList_camelCase, toList_camelCase, toList_pascalCase,
    camelChars_of_ascii hcapital, camelChars_of_ascii hs, ← capitalized_capitalized_iff hs]
  constructor
  · exact lowerHead_inj (toUpper_head_capitalized hcapital) (toUpper_head_capitalized hs)
  · exact fun h => congrArg lowerHead h

end ClientRoutes.Casing
