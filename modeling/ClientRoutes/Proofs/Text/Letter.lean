import ClientRoutes.Text.Letter
import Mathlib.Data.List.Basic
import Mathlib.Tactic.MkIffOfInductiveProp

/-
  Laws of letters and their case.

  Inside ASCII case is what it is for English letters, and each letter stays one
  letter. Outside ASCII it is a matter of the tables; about these only one kind of
  fact is needed, that they lead past certain code points.

  What is proved:
    1. `asciiCase` — case and class of ASCII characters.
    2. `toNat_not_mem_of_mem` — no letter outside ASCII becomes a character that
       the tables lead past.
    3. `dees_upper`, `dees_lowerText`, `dees_lowerWord` — a change of case keeps
       the number of letters `d`.
-/

namespace ClientRoutes.Text.Letter

/-! ## Small letters of any text -/

theorem lower_ne_nil (c : Char) : lower c ≠ [] := by
  have htable : ∀ e ∈ expandingLower, ofCodes e.2 ≠ [] := by decide
  unfold lower
  split
  · next codes hl =>
    obtain ⟨front, back, hsplit, -⟩ := List.lookup_eq_some_iff.1 hl
    exact htable (c.toNat, codes) (by simp [hsplit])
  · exact List.cons_ne_nil _ _

theorem lowerWord_ne_nil {s : List Char} (h : s ≠ []) : lowerWord s ≠ [] := by
  unfold lowerWord
  split
  · simp
  · obtain ⟨c, rest, rfl⟩ := List.exists_cons_of_ne_nil h
    rw [lowerText, List.flatMap_cons]
    exact List.append_ne_nil_of_left_ne_nil (lower_ne_nil c) _

/-! ## ASCII -/

/-- Whether a text consists of ASCII characters. -/
def IsAscii (s : List Char) : Prop := ∀ c ∈ s, c.toNat < 128

instance (s : List Char) : Decidable (IsAscii s) :=
  List.decidableBAll (fun c : Char => c.toNat < 128) s

theorem isAscii_cons {c : Char} {s : List Char} :
    IsAscii (c :: s) ↔ c.toNat < 128 ∧ IsAscii s := by
  simp [IsAscii]

/-- Whether characters of a kind have a case. -/
def Kind.isCased : Kind → Bool
  | .upper | .lower => true
  | _ => false

/-- Whether a character is the letter `d` in either case. -/
def isDee (c : Char) : Bool := c == 'd' || c == 'D'

/-- What the tables say about a letter of ASCII: its case is one letter, and all
others stay as they are. -/
@[mk_iff]
structure AsciiCase (c : Char) : Prop where
  upper_eq : upper c = [c.toUpper]
  lower_eq : lower c = [c.toLower]
  toUpper_lt : c.toUpper.toNat < 128
  toLower_lt : c.toLower.toNat < 128
  toLower_toUpper : c.toUpper.toLower = c.toLower
  toUpper_toLower : c.toLower.toUpper = c.toUpper
  toUpper_eq : kind c ≠ .lower → c.toUpper = c
  toLower_eq : kind c ≠ .upper → c.toLower = c
  kind_toUpper : (kind c).isCased = true → kind c.toUpper = .upper
  kind_toLower : (kind c).isCased = true → kind c.toLower = .lower
  kind_ne : kind c ≠ .caseless
  isDee_toUpper : isDee c.toUpper = isDee c
  isDee_toLower : isDee c.toLower = isDee c

instance (c : Char) : Decidable (AsciiCase c) := decidable_of_iff' _ (asciiCase_iff c)

/-- What holds of the first code points holds of every character of ASCII. -/
theorem ascii_forall {p : Char → Prop} (h : ∀ n < 128, p (Char.ofNat n)) {c : Char}
    (hc : c.toNat < 128) : p c := by
  have hp := h c.toNat hc
  rwa [Char.ofNat_toNat] at hp

theorem asciiCase {c : Char} (hc : c.toNat < 128) : AsciiCase c :=
  ascii_forall (by decide +kernel) hc

theorem AsciiCase.toLower_toLower {c : Char} (h : AsciiCase c) : c.toLower.toLower = c.toLower := by
  have hlower := (asciiCase h.toLower_lt).toLower_toUpper
  rw [h.toUpper_toLower, h.toLower_toUpper] at hlower
  exact hlower.symm

theorem lowerText_of_ascii {s : List Char} (h : IsAscii s) : lowerText s = s.map Char.toLower := by
  induction s with
  | nil => rfl
  | cons c s ih =>
    obtain ⟨hc, hs⟩ := isAscii_cons.1 h
    have hcons : lowerText (c :: s) = lower c ++ lowerText s := rfl
    rw [hcons, (asciiCase hc).lower_eq, ih hs]
    rfl

theorem lowerWord_of_not_mem {s : List Char} (h : 'Σ' ∉ s) : lowerWord s = lowerText s := by
  unfold lowerWord
  split
  · next hsigma =>
    have hmem : 'Σ' ∈ s := by
      rw [← List.mem_reverse, hsigma]
      exact List.mem_cons_self
    exact absurd hmem h
  · rfl

theorem lowerWord_of_ascii {s : List Char} (h : IsAscii s) : lowerWord s = lowerText s :=
  lowerWord_of_not_mem fun hmem => absurd (h 'Σ' hmem) (by decide)

/-- Digits are ASCII characters. -/
theorem ascii_of_kind_digit {c : Char} (h : kind c = .digit) : c.toNat < 128 := by
  have hd : isDigit c = true := by
    unfold kind at h
    repeat' split at h
    all_goals first | assumption | cases h
  have hle : c ≤ '9' := by simpa using (Bool.and_eq_true_iff.1 hd).2
  have hnat : c.toNat ≤ 57 := hle
  omega

theorem upper_of_kind_digit {c : Char} (h : kind c = .digit) : upper c = [c] := by
  have hcase := asciiCase (ascii_of_kind_digit h)
  rw [hcase.upper_eq, hcase.toUpper_eq (by simp [h])]

theorem lower_of_kind_digit {c : Char} (h : kind c = .digit) : lower c = [c] := by
  have hcase := asciiCase (ascii_of_kind_digit h)
  rw [hcase.lower_eq, hcase.toLower_eq (by simp [h])]

theorem toNat_ofNat_eq {n m : Nat} (h : (Char.ofNat n).toNat = m) (hm : m ≠ 0) : n = m := by
  by_cases hvalid : n.isValidChar
  · have hchar : Char.ofNat n = Char.ofNatAux n hvalid := dif_pos hvalid
    rw [hchar] at h
    exact h
  · have hchar : Char.ofNat n = '\x00' := dif_neg hvalid
    rw [hchar] at h
    exact absurd h.symm hm

/-! ## Outside ASCII

The tables lead past whole sets of code points, which is all that is asked about
letters outside ASCII. -/

/-- Whether a shift of code points outside ASCII leads past those of a list. -/
def Shift.avoids (codes : List Nat) (s : Shift) : Bool :=
  s.last < 128 ||
    codes.all fun (m : Nat) => (m : Int) < s.first + s.offset || s.last + s.offset < m

theorem image_not_mem {codes : List Nat} (hzero : 0 ∉ codes) {shifts : List Shift}
    (h : ∀ s ∈ shifts, s.avoids codes = true) {n : Nat} (hn : 128 ≤ n) (hnot : n ∉ codes) :
    Shift.image shifts n ∉ codes := by
  induction shifts with
  | nil => exact hnot
  | cons s rest ih =>
    rw [Shift.image]
    split
    · exact hnot
    · split
      · -- The shift that covers the code point leads past every code of the list.
        next hcovers =>
        intro hm
        have havoids := h s (by simp)
        simp only [Shift.avoids, Shift.covers, Bool.or_eq_true, Bool.and_eq_true,
          decide_eq_true_eq, List.all_eq_true] at havoids hcovers
        rcases havoids with hlast | hall
        · omega
        · have hpassed := hall _ hm
          have hne : (n + s.offset).toNat ≠ 0 := fun h0 => hzero (h0 ▸ hm)
          omega
      · exact ih fun t ht => h t (by simp [ht])

/-- What tables make of a character outside ASCII is none of the code points that
they lead past. -/
theorem toNat_not_mem_of_mem {codes : List Nat} (hzero : 0 ∉ codes)
    {expanding : List (Nat × List Nat)} {shifts : List Shift}
    (he : ∀ e ∈ expanding, ∀ m ∈ e.2, m ∉ codes) (hs : ∀ s ∈ shifts, s.avoids codes = true)
    {c d : Char} (hc : 128 ≤ c.toNat) (hnot : c.toNat ∉ codes)
    (hd : d ∈ match expanding.lookup c.toNat with
      | some images => ofCodes images
      | none => [Char.ofNat (Shift.image shifts c.toNat)]) : d.toNat ∉ codes := by
  -- A number that is no code point becomes zero, which is not in the list.
  have hof : ∀ n, n ∉ codes → (Char.ofNat n).toNat ∉ codes := by
    intro n hn hm
    have heq := toNat_ofNat_eq rfl fun h0 => hzero (h0 ▸ hm)
    exact hn (heq ▸ hm)
  cases hl : expanding.lookup c.toNat with
  | some images =>
    rw [hl] at hd
    obtain ⟨n, hn, rfl⟩ := List.mem_map.1 hd
    obtain ⟨front, back, hsplit, -⟩ := List.lookup_eq_some_iff.1 hl
    exact hof n (he (c.toNat, images) (by simp [hsplit]) n hn)
  | none =>
    rw [hl] at hd
    rw [List.mem_singleton.1 hd]
    exact hof _ (image_not_mem hzero hs hc hnot)

/-- What is asked about a few code points of ASCII has the same answer before and after
a change of case, if it has so in ASCII and the tables lead past these code points. -/
theorem eq_of_mem_case {p : Char → Bool} {codes : List Nat} (hp : ∀ {c}, p c = true ↔ c.toNat ∈ codes)
    (hcodes : ∀ m ∈ codes, 0 < m ∧ m < 128) {expanding : List (Nat × List Nat)}
    {shifts : List Shift} (he : ∀ e ∈ expanding, ∀ m ∈ e.2, m ∉ codes)
    (hs : ∀ s ∈ shifts, s.avoids codes = true)
    (hascii : ∀ c : Char, c.toNat < 128 → ∀ d ∈ (match expanding.lookup c.toNat with
      | some images => ofCodes images
      | none => [Char.ofNat (Shift.image shifts c.toNat)]), p d = p c)
    {c d : Char} (hd : d ∈ match expanding.lookup c.toNat with
      | some images => ofCodes images
      | none => [Char.ofNat (Shift.image shifts c.toNat)]) : p d = p c := by
  by_cases hc : c.toNat < 128
  · exact hascii c hc d hd
  · have hzero : 0 ∉ codes := fun h => Nat.lt_irrefl 0 (hcodes 0 h).1
    have hnot : c.toNat ∉ codes := fun h => hc (hcodes _ h).2
    have hmem := toNat_not_mem_of_mem hzero he hs (Nat.le_of_not_lt hc) hnot hd
    rw [← hp, Bool.not_eq_true] at hnot hmem
    rw [hnot, hmem]

/-! ## The letter d -/

theorem isDee_eq_true_iff {c : Char} : isDee c = true ↔ c.toNat ∈ [100, 68] := by
  have hd : 'd'.toNat = 100 := rfl
  have hD : 'D'.toNat = 68 := rfl
  rw [isDee, Bool.or_eq_true, beq_iff_eq, beq_iff_eq, ← Char.toNat_inj, ← Char.toNat_inj, hd, hD,
    List.mem_pair]

theorem isDee_of_mem_upper {c d : Char} (hd : d ∈ upper c) : isDee d = isDee c := by
  refine eq_of_mem_case isDee_eq_true_iff (by decide) (by decide +kernel) (by decide +kernel) ?_ hd
  intro c hc d hd
  have hd : d ∈ upper c := hd
  rw [(asciiCase hc).upper_eq, List.mem_singleton] at hd
  rw [hd, (asciiCase hc).isDee_toUpper]

theorem isDee_of_mem_lower {c d : Char} (hd : d ∈ lower c) : isDee d = isDee c := by
  refine eq_of_mem_case isDee_eq_true_iff (by decide) (by decide +kernel) (by decide +kernel) ?_ hd
  intro c hc d hd
  have hd : d ∈ lower c := hd
  rw [(asciiCase hc).lower_eq, List.mem_singleton] at hd
  rw [hd, (asciiCase hc).isDee_toLower]

/-- The number of letters `d` in a text. -/
def dees (s : List Char) : Nat := s.countP isDee

@[simp] theorem dees_append (s t : List Char) : dees (s ++ t) = dees s + dees t :=
  List.countP_append

theorem dees_cons (c : Char) (s : List Char) : dees (c :: s) = dees [c] + dees s :=
  dees_append [c] s

theorem dees_eq_of_forall {f : Char → List Char} (hf : ∀ c d, d ∈ f c → isDee d = isDee c)
    (hsmall : dees (f 'd') = 1) (hcapital : dees (f 'D') = 1) (c : Char) :
    dees (f c) = dees [c] := by
  by_cases hc : isDee c = true
  · rw [isDee, Bool.or_eq_true, beq_iff_eq, beq_iff_eq] at hc
    rcases hc with rfl | rfl
    · exact hsmall
    · exact hcapital
  · have hnone : ∀ cs : List Char, (∀ d ∈ cs, isDee d = isDee c) → dees cs = 0 := by
      intro cs hcs
      rw [dees, List.countP_eq_zero]
      intro d hd
      rwa [hcs d hd]
    rw [hnone _ (hf c), hnone [c] (by simp)]

theorem dees_upper (c : Char) : dees (upper c) = dees [c] :=
  dees_eq_of_forall (fun _ _ => isDee_of_mem_upper) (by decide) (by decide) c

theorem dees_lower (c : Char) : dees (lower c) = dees [c] :=
  dees_eq_of_forall (fun _ _ => isDee_of_mem_lower) (by decide) (by decide) c

theorem dees_lowerText (s : List Char) : dees (lowerText s) = dees s := by
  induction s with
  | nil => rfl
  | cons c s ih =>
    have hcons : lowerText (c :: s) = lower c ++ lowerText s := rfl
    rw [hcons, dees_append, dees_lower, ih, dees_cons c s]

theorem dees_lowerWord (s : List Char) : dees (lowerWord s) = dees s := by
  unfold lowerWord
  split
  · next c rest h =>
    have hs : s = rest.reverse ++ [c] ++ ['Σ'] := by
      rw [← List.reverse_reverse s, h]
      simp
    have hsigma : dees ['ς'] = dees ['Σ'] := rfl
    rw [hs, dees_append, dees_lowerText, hsigma, ← dees_append]
  · exact dees_lowerText s

end ClientRoutes.Text.Letter
