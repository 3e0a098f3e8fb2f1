import ClientRoutes.Proofs.Casing.Words

/-
  The words of a text, seen as its tokens.

  `words` is built from the right, so it does not say where a word ends. Here a text is
  cut from the left into words and separators: a word has one of a few forms, and it
  ends only where the next character cannot belong to it. A run of capitals is the one
  case where it could: before small letters it gives its last capital away. What is
  said about the end of a word looks at two characters behind it and at nothing else,
  and it settles the whole cut.

  What is proved:
    1. `cut_words` — the words of a text are such a cut.
    2. `isWord_of_mem_words`, `oneSort_of_mem_words` — what its words look like.
    3. `Cut.unique`, `cut_iff` — there is no other cut.
    4. `words_placed` — where each word stands in the text, what it looks like and
       what follows it.
-/

namespace ClientRoutes.Casing

open Text Text.Letter

/-- The forms of a word: characters of one kind, or a capital and small letters. -/
inductive IsWord : List Char → Prop
  | uniform {k : Kind} {w : List Char} (hk : k ≠ .other) (hne : w ≠ [])
      (hw : ∀ c ∈ w, kind c = k) : IsWord w
  | title {u : Char} {l : List Char} (hu : kind u = .upper) (hne : l ≠ [])
      (hl : ∀ c ∈ l, kind c = .lower) : IsWord (u :: l)

/-- A word may end before a text. -/
structure Ends (w rest : List Char) : Prop where
  /-- Capitals on their own are not followed by a small letter. -/
  ne_lower : (∀ c ∈ w, kind c = .upper) → ∀ d ∈ rest.head?, kind d ≠ .lower
  /-- A character of the same kind is a capital that a small letter follows. -/
  of_kind_eq : ∀ c ∈ w.getLast?, ∀ d ∈ rest.head?, kind d = kind c →
    kind c = .upper ∧ ∃ e ∈ rest.tail.head?, kind e = .lower

/-- A text is cut into words, with separators before, between and behind them. -/
inductive Cut : List Char → List (List Char) → Prop
  | nil : Cut [] []
  | skip {c : Char} {s : List Char} {ws : List (List Char)} (hc : isWordChar c = false)
      (hcut : Cut s ws) : Cut (c :: s) ws
  | word {w rest s : List Char} {ws : List (List Char)} (hw : IsWord w) (hends : Ends w rest)
      (hs : s = w ++ rest) (hcut : Cut rest ws) : Cut s (w :: ws)

theorem isWordChar_iff {c : Char} : isWordChar c = true ↔ kind c ≠ .other := bne_iff_ne

theorem isWordChar_eq (c : Char) :
    isWordChar c = (isUpper c || isLower c || isDigit c || isCaseless c) := by
  unfold isWordChar kind
  cases isUpper c <;> cases isLower c <;> cases isDigit c <;> cases isCaseless c <;> rfl

theorem IsWord.ne_nil {w : List Char} (h : IsWord w) : w ≠ [] := by
  cases h with
  | uniform _ hne _ => exact hne
  | title => exact List.cons_ne_nil _ _

theorem IsWord.isWordChar_of_mem {w : List Char} (h : IsWord w) : ∀ c ∈ w, isWordChar c = true := by
  intro c hc
  rw [isWordChar_iff]
  cases h with
  | uniform hk _ hw => rwa [hw c hc]
  | title hu _ hl =>
    rcases List.mem_cons.1 hc with rfl | hc
    · simp [hu]
    · simp [hl c hc]

/-- A capital in front of another character of its word is in front of a capital or of
a small letter. -/
theorem IsWord.kind_second {u e : Char} {w : List Char} (h : IsWord (u :: e :: w))
    (hu : kind u = .upper) : kind e = .upper ∨ (kind e = .lower ∧ ∀ c ∈ w, kind c = .lower) := by
  cases h with
  | uniform _ _ hw =>
    left
    rw [hw e (by simp), ← hw u (by simp), hu]
  | title _ _ hl => exact .inr (List.forall_mem_cons.1 hl)

/-- A word that ends in a capital is all capitals. -/
theorem IsWord.all_upper {w : List Char} (h : IsWord w) {c : Char} (hc : c ∈ w.getLast?)
    (hupper : kind c = .upper) : ∀ d ∈ w, kind d = .upper := by
  intro d hd
  cases h with
  | uniform _ _ hw => rw [hw d hd, ← hw c (List.mem_of_mem_getLast? hc), hupper]
  | title _ hne hl =>
    rw [List.getLast?_cons_of_ne_nil hne] at hc
    rw [hl c (List.mem_of_mem_getLast? hc)] at hupper
    cases hupper

/-- A word that begins with a small letter has no capitals. -/
theorem IsWord.all_lower {c : Char} {w : List Char} (h : IsWord (c :: w)) (hc : kind c = .lower) :
    ∀ d ∈ w, kind d = .lower := by
  intro d hd
  cases h with
  | uniform _ _ hw => rw [hw d (by simp [hd]), ← hw c (by simp), hc]
  | title hu _ _ =>
    rw [hc] at hu
    cases hu

/-- The sort of a kind: upper and lower case are one sort. -/
def sort : Kind → Kind
  | .upper => .lower
  | k => k

/-- The characters of a word are of one sort. -/
def OneSort (w : List Char) : Prop := ∃ k, ∀ c ∈ w, sort (kind c) = k

theorem IsWord.oneSort {w : List Char} (h : IsWord w) : OneSort w := by
  cases h with
  | uniform _ _ hw => exact ⟨_, fun c hc => congrArg sort (hw c hc)⟩
  | title hu _ hl =>
    exact ⟨.lower, List.forall_mem_cons.2 ⟨congrArg sort hu, fun c hc => congrArg sort (hl c hc)⟩⟩

/-! ## The words are a cut -/

theorem Cut.of_startsWord {s w : List Char} {ws : List (List Char)} (h : Cut s (w :: ws))
    (hs : startsWord s = true) : ∃ rest, s = w ++ rest ∧ IsWord w ∧ Ends w rest ∧ Cut rest ws := by
  cases h with
  | skip hc _ =>
    have hc' : isWordChar _ = true := hs
    rw [hc] at hc'
    cases hc'
  | word hw hends hs hcut => exact ⟨_, hs, hw, hends, hcut⟩

/-- A character that joins a word makes a word of it. -/
theorem IsWord.cons {c : Char} {w : List Char} (h : IsWord w)
    (hjoins : joins (kind c) w = true) : IsWord (c :: w) := by
  obtain ⟨d, v, rfl⟩ := List.exists_cons_of_ne_nil h.ne_nil
  by_cases hkinds : kind c = kind d
  · cases h with
    | uniform hk hne hw =>
      exact .uniform hk (List.cons_ne_nil _ _)
        (List.forall_mem_cons.2 ⟨hkinds.trans (hw d (by simp)), hw⟩)
    | title hu hne hl =>
      -- Two capitals in front of small letters are not of one word.
      obtain ⟨e, v, rfl⟩ := List.exists_cons_of_ne_nil hne
      simp [joins, hkinds, hu, hl e (by simp)] at hjoins
  · have hcase : kind c = .upper ∧ kind d = .lower := by
      cases hc' : kind c <;> cases hd : kind d <;> simp_all [joins]
    cases h with
    | uniform hk hne hw =>
      refine .title hcase.1 hne fun e he => ?_
      rw [hw e he, ← hw d (by simp), hcase.2]
    | title hu _ _ => simp [hu] at hcase

theorem Ends.cons {w rest : List Char} (h : Ends w rest) (hne : w ≠ []) (c : Char) :
    Ends (c :: w) rest where
  ne_lower hall := h.ne_lower (List.forall_mem_cons.1 hall).2
  of_kind_eq := by
    rw [List.getLast?_cons_of_ne_nil hne]
    exact h.of_kind_eq

/-- A character that joins no word is a word that ends there. -/
theorem ends_of_breaks {c : Char} {s : List Char} (hc : isWordChar c = true)
    (hbreaks : Breaks [c] s) (hcut : Cut s (words s)) : Ends [c] s := by
  have hnext : ∀ d ∈ s.head?, isWordChar d = true → ∃ v rest, s = d :: v ++ rest ∧
      IsWord (d :: v) ∧ joins (kind c) (d :: v) = false := by
    intro d hd hword
    have hstarts : startsWord s = true := by
      rw [startsWord, Option.mem_def.1 hd]
      exact hword
    obtain ⟨d', tail, v, vs, hs, hwords⟩ := words_of_startsWord hstarts
    obtain rfl : d' = d := by simpa [hs] using hd
    rw [hwords] at hcut
    obtain ⟨rest, hrest, hw, -, -⟩ := hcut.of_startsWord hstarts
    exact ⟨v, rest, hrest, hw, hbreaks c (by simp) _ (by simp [hwords]) hstarts⟩
  constructor
  · intro hall d hd hlower
    obtain ⟨v, rest, -, -, hjoins⟩ := hnext d hd (by simp [isWordChar_iff, hlower])
    simp [joins, hall c (by simp), hlower] at hjoins
  · intro c' hc' d hd hkind
    obtain rfl : c = c' := by simpa using hc'
    have hword : isWordChar d = true := by rwa [isWordChar_iff, hkind, ← isWordChar_iff]
    obtain ⟨v, rest, hs, hw, hjoins⟩ := hnext d hd hword
    -- Of two characters of one kind only capitals may be apart, and only before a small letter.
    have hupper : kind c = .upper := by
      cases hk : kind c <;> simp_all [joins]
    refine ⟨hupper, ?_⟩
    rw [hupper] at hkind hjoins
    cases v with
    | nil => simp [joins, hkind] at hjoins
    | cons e v =>
      refine ⟨e, by simp [hs], ?_⟩
      rcases hw.kind_second hkind with he | ⟨he, -⟩
      · simp [joins, hkind, he] at hjoins
      · exact he

theorem cut_words (s : List Char) : Cut s (words s) := by
  -- A character is dropped, ends a cut of its own, or joins the first word behind it.
  induction s with
  | nil => exact .nil
  | cons c s ih =>
    rcases words_cons c s with ⟨hc, h⟩ | ⟨hc, hbreaks, h⟩ | ⟨-, w, ws, hw, hstarts, hjoins, h⟩
    · rw [h]
      exact .skip hc ih
    · rw [h]
      have hword : IsWord [c] := .uniform (isWordChar_iff.1 hc) (List.cons_ne_nil _ _) (by simp)
      exact .word hword (ends_of_breaks hc hbreaks ih) rfl ih
    · rw [h]
      rw [hw] at ih
      obtain ⟨rest, rfl, hword, hends, hcut⟩ := ih.of_startsWord hstarts
      exact .word (hword.cons hjoins) (hends.cons hword.ne_nil c) rfl hcut

theorem isWord_of_mem_words {s w : List Char} (h : w ∈ words s) : IsWord w := by
  have hcut := cut_words s
  generalize words s = ws at h hcut
  induction hcut with
  | nil => cases h
  | skip _ _ ih => exact ih h
  | word hw _ _ _ ih =>
    rcases List.mem_cons.1 h with rfl | h
    · exact hw
    · exact ih h

theorem oneSort_of_mem_words {s w : List Char} (h : w ∈ words s) : OneSort w :=
  (isWord_of_mem_words h).oneSort

/-! ## There is no other cut -/

/-- Two characters that meet in a word are of one kind, or they are its capital and its
first small letter. -/
theorem IsWord.kind_meet {w more : List Char} {c d : Char} (h : IsWord (w ++ d :: more))
    (hc : c ∈ w.getLast?) :
    (kind d = kind c ∧ (kind c = .upper → ∀ x ∈ w ++ d :: more, kind x = .upper)) ∨
      (w = [c] ∧ kind c = .upper ∧ kind d = .lower) := by
  obtain ⟨v, rfl⟩ := List.getLast?_eq_some_iff.1 hc
  generalize htext : v ++ [c] ++ d :: more = text at h ⊢
  cases h with
  | uniform _ _ hw =>
    subst htext
    have hkind : kind c = _ := hw c (by simp)
    refine .inl ⟨(hw d (by simp)).trans hkind.symm, fun hupper x hx => ?_⟩
    rw [hw x hx, ← hkind, hupper]
  | title hu _ hl =>
    cases v with
    | nil =>
      obtain ⟨rfl, rfl⟩ := List.cons.inj htext
      exact .inr ⟨rfl, hu, hl d (by simp)⟩
    | cons a v =>
      obtain ⟨-, rfl⟩ := List.cons.inj htext
      have hlower : kind c = .lower := hl c (by simp)
      refine .inl ⟨(hl d (by simp)).trans hlower.symm, fun hupper => ?_⟩
      rw [hlower] at hupper
      cases hupper

/-- A word that may end somewhere is not the front of a longer one that may end later. -/
theorem IsWord.eq_nil_of_append {w more rest : List Char} (hw : IsWord w)
    (hends : Ends w (more ++ rest)) (hlong : IsWord (w ++ more)) (hends' : Ends (w ++ more) rest) :
    more = [] := by
  cases more with
  | nil => rfl
  | cons d more =>
    exfalso
    have hlast : w.getLast hw.ne_nil ∈ w.getLast? := List.getLast?_eq_some_getLast hw.ne_nil
    rcases hlong.kind_meet hlast with ⟨hkind, hall⟩ | ⟨hone, hupper, hlower⟩
    · obtain ⟨hupper, e, he, hlower⟩ := hends.of_kind_eq _ hlast d rfl hkind
      -- The small letter behind the capital is part of the longer word, or follows it.
      cases more with
      | nil => exact hends'.ne_lower (hall hupper) e he hlower
      | cons e' more =>
        obtain rfl : e' = e := by simpa using he
        rw [hall hupper e' (by simp)] at hlower
        cases hlower
    · refine hends.ne_lower (fun x hx => ?_) d rfl hlower
      rw [hone] at hx
      rwa [List.mem_singleton.1 hx]

theorem Cut.unique {s : List Char} {ws ws' : List (List Char)} (h : Cut s ws) (h' : Cut s ws') :
    ws = ws' := by
  have hfirst : ∀ {c : Char} {w rest s : List Char}, IsWord w → c :: s = w ++ rest →
      isWordChar c = true := by
    intro c w rest s hw heq
    obtain ⟨d, v, rfl⟩ := List.exists_cons_of_ne_nil hw.ne_nil
    obtain ⟨rfl, -⟩ := List.cons.inj heq
    exact hw.isWordChar_of_mem c (by simp)
  induction h generalizing ws' with
  | nil =>
    cases h' with
    | nil => rfl
    | word hw _ hs _ => exact absurd (List.append_eq_nil_iff.1 hs.symm).1 hw.ne_nil
  | skip hc _ ih =>
    cases h' with
    | skip _ hcut => exact ih hcut
    | word hw _ hs _ => simp [hfirst hw hs] at hc
  | @word w rest s ws hw hends hs _ ih =>
    cases h' with
    | nil => exact absurd (List.append_eq_nil_iff.1 hs.symm).1 hw.ne_nil
    | skip hc _ => simp [hfirst hw hs] at hc
    | @word w' rest' _ _ hw' hends' hs' hcut' =>
      -- Of the two first words one is the front of the other.
      rcases List.append_eq_append_iff.1 (hs.symm.trans hs') with
        ⟨more, rfl, rfl⟩ | ⟨more, rfl, rfl⟩
      · obtain rfl := hw.eq_nil_of_append hends hw' hends'
        rw [List.append_nil, ih hcut']
      · obtain rfl := hw'.eq_nil_of_append hends' hw hends
        rw [List.append_nil, ih hcut']

theorem cut_iff {s : List Char} {ws : List (List Char)} : Cut s ws ↔ ws = words s := by
  constructor
  · exact fun h => h.unique (cut_words s)
  · rintro rfl
    exact cut_words s

/-! ## Where the words are -/

theorem Cut.flatten {s : List Char} {ws : List (List Char)} (h : Cut s ws) :
    ws.flatten = s.filter isWordChar := by
  rw [cut_iff.1 h, flatten_words]

/-- A word of a cut has a place in the text. -/
theorem Cut.exists_place {s w : List Char} {ws us vs : List (List Char)} (h : Cut s ws)
    (hws : ws = us ++ w :: vs) : ∃ front rest, s = front ++ w ++ rest ∧
      front.filter isWordChar = us.flatten ∧ IsWord w ∧ Ends w rest ∧ Cut rest vs := by
  induction h generalizing us with
  | nil => simp at hws
  | @skip c s ws hc _ ih =>
    obtain ⟨front, rest, rfl, hfront, hplace⟩ := ih hws
    exact ⟨c :: front, rest, rfl, by rw [List.filter_cons_of_neg (by simp [hc]), hfront], hplace⟩
  | @word v rest s ws hv hends hs hcut ih =>
    cases us with
    | nil =>
      obtain ⟨rfl, rfl⟩ := List.cons.inj hws
      exact ⟨[], rest, hs, rfl, hv, hends, hcut⟩
    | cons u us =>
      obtain ⟨rfl, rfl⟩ := List.cons.inj hws
      obtain ⟨front, rest', rfl, hfront, hplace⟩ := ih rfl
      refine ⟨v ++ front, rest', by simp [hs], ?_, hplace⟩
      rw [List.filter_append, List.filter_eq_self.2 hv.isWordChar_of_mem, hfront, List.flatten_cons]

/-- A capital in front of a small letter begins the next word. -/
theorem Cut.title_of_upper {s : List Char} {ws : List (List Char)} (h : Cut s ws) {d e : Char}
    (hd : d ∈ s.head?) (hupper : kind d = .upper) (he : e ∈ s.tail.head?)
    (hlower : kind e = .lower) :
    ∃ l, (d :: l) ∈ ws.head? ∧ l ≠ [] ∧ ∀ c ∈ l, kind c = .lower := by
  cases h with
  | nil => simp at hd
  | skip hc _ =>
    obtain rfl := Option.some.inj hd
    simp [isWordChar, hupper] at hc
  | @word w rest _ _ hw hends hs _ =>
    subst hs
    obtain ⟨d', v, rfl⟩ := List.exists_cons_of_ne_nil hw.ne_nil
    obtain rfl := Option.some.inj hd
    cases v with
    | nil => exact absurd hlower (hends.ne_lower (by simpa using hupper) e he)
    | cons e' v =>
      obtain rfl := Option.some.inj he
      refine ⟨e' :: v, rfl, List.cons_ne_nil _ _, ?_⟩
      rcases hw.kind_second hupper with hnot | ⟨-, hv⟩
      · rw [hlower] at hnot
        cases hnot
      · exact List.forall_mem_cons.2 ⟨hlower, hv⟩

/-- The words hold the letters and digits of a text in order, and nothing else. Each is a
run of characters of one kind, or a capital and small letters. It stands in the text
behind what the words before it hold and in front of what the words after it hold; a
word of capitals is never directly followed by a small letter, and a word that is directly
followed by a character of its own kind is a word of capitals that gives the last capital
of the run to the small letters behind it. -/
theorem words_placed (s : List Char) :
    (words s).flatten =
      s.filter (fun c => isUpper c || isLower c || isDigit c || isCaseless c) ∧
    (∀ w ∈ words s, IsWord w) ∧
    ∀ us w vs, words s = us ++ w :: vs → ∃ front rest, s = front ++ w ++ rest ∧
      front.filter isWordChar = us.flatten ∧ rest.filter isWordChar = vs.flatten ∧
      ((∀ c ∈ w, kind c = .upper) → ∀ d ∈ rest.head?, kind d ≠ .lower) ∧
      ∀ last ∈ w.getLast?, ∀ d ∈ rest.head?, kind d = kind last →
        (∀ c ∈ w, kind c = .upper) ∧
          ∃ l, (d :: l) ∈ vs.head? ∧ l ≠ [] ∧ ∀ e ∈ l, kind e = .lower := by
  have hcut := cut_words s
  refine ⟨?_, fun w hw => isWord_of_mem_words hw, fun us w vs hwords => ?_⟩
  · rw [flatten_words]
    exact List.filter_congr fun c _ => isWordChar_eq c
  · obtain ⟨front, rest, hs, hfront, hword, hends, hrest⟩ := hcut.exists_place hwords
    refine ⟨front, rest, hs, hfront, hrest.flatten.symm, hends.ne_lower,
      fun last hlast d hd hkind => ?_⟩
    obtain ⟨hupper, e, he, hlower⟩ := hends.of_kind_eq last hlast d hd hkind
    refine ⟨hword.all_upper hlast hupper, ?_⟩
    exact hrest.title_of_upper hd (hkind.trans hupper) he hlower

/-- `HTML` ends before the small letters of `Parser`, which take the capital `P` along. -/
theorem words_placed_html :
    words "get_HTMLParser2".toList =
        ["get".toList] ++ "HTML".toList :: ["Parser".toList, "2".toList] ∧
      (words "get_HTMLParser2".toList).flatten = "getHTMLParser2".toList ∧
      IsWord "HTML".toList ∧
      ∃ front rest, "get_HTMLParser2".toList = front ++ "HTML".toList ++ rest ∧
        front.filter isWordChar = "get".toList ∧ rest.filter isWordChar = "Parser2".toList ∧
        (∀ d ∈ rest.head?, kind d ≠ .lower) ∧
        ∀ d ∈ rest.head?, kind d = .upper →
          ∃ l, (d :: l) ∈ ["Parser".toList, "2".toList].head? ∧ l ≠ [] ∧
            ∀ e ∈ l, kind e = .lower := by
  have hwords : words "get_HTMLParser2".toList =
      ["get".toList] ++ "HTML".toList :: ["Parser".toList, "2".toList] := by decide +kernel
  have hcapitals : ∀ c ∈ "HTML".toList, kind c = .upper := by
    have hall : ("HTML".toList.all fun c => kind c == .upper) = true := by decide +kernel
    exact fun c hc => beq_iff_eq.1 (List.all_eq_true.1 hall c hc)
  obtain ⟨hflatten, hword, hplaced⟩ := words_placed "get_HTMLParser2".toList
  obtain ⟨front, rest, hs, hfront, hrest, hnext, hkind⟩ := hplaced _ _ _ hwords
  have hmem : "HTML".toList ∈ words "get_HTMLParser2".toList := by
    rw [hwords]
    exact List.mem_append_right _ List.mem_cons_self
  refine ⟨hwords, hflatten.trans (by decide +kernel), hword _ hmem, front, rest, hs, hfront, hrest,
    hnext hcapitals, fun d hd hupper => ?_⟩
  exact (hkind 'L' (by decide) d hd (by rw [hupper, hcapitals 'L' (by decide)])).2

end ClientRoutes.Casing
