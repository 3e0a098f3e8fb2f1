import ClientRoutes.Proofs.Text.Trimming
import ClientRoutes.Text.Digit

/-
  Decimal digits and the number they write.

  What is proved:
    1. `readNat?_eq_some_iff` — a run of decimal digits is read as the number that it
       writes, and nothing else is read.
    2. `writes_toString` — the written form of a number writes it.
-/

namespace ClientRoutes.Text

/-- A run of decimal digits that writes a number. -/
structure Writes (s : List Char) (n : Nat) : Prop where
  ne_nil : s ≠ []
  digits : ∀ c ∈ s, c.isDigit = true
  value : Nat.ofDigitChars 10 s 0 = n

theorem between_eq_isDigit (c : Char) : (decide ('0' ≤ c) && decide (c ≤ '9')) = c.isDigit := rfl

theorem isDecimal_eq (c : Char) : isDecimal c = c.isDigit := by
  rw [isDecimal, decimalValue?, between_eq_isDigit]
  split <;> simp_all

theorem isBlank_of_isDigit {c : Char} (h : c.isDigit = true) : isBlank c = false := by
  obtain ⟨hlow, hhigh⟩ := Char.isDigit_iff_toNat.1 h
  have hzero : '0'.toNat = 48 := rfl
  have hnine : '9'.toNat = 57 := rfl
  simp only [isBlank, Bool.or_eq_false_iff, Bool.and_eq_false_iff, decide_eq_false_iff_not,
    beq_eq_false_iff_ne]
  omega

theorem Writes.trimmed {s : List Char} {n : Nat} (h : Writes s n) : Trimmed s :=
  .of_forall fun c hc => isBlank_of_isDigit (h.digits c hc)

theorem Writes.not_mem {s : List Char} {n : Nat} (h : Writes s n) {c : Char}
    (hc : c.isDigit = false) : c ∉ s := by
  intro hmem
  rw [h.digits c hmem] at hc
  cases hc

/-- The letters that are digits in other bases are too large for base ten. -/
theorem digitValue?_ten (c : Char) :
    digitValue? 10 c = if c.isDigit then some (c.toNat - '0'.toNat) else none := by
  rw [digitValue?, hexValue?, between_eq_isDigit]
  split
  · next h =>
    have hle := (Char.isDigit_iff_toNat.1 h).2
    have hnine : '9'.toNat = 57 := rfl
    have hzero : '0'.toNat = 48 := rfl
    rw [Option.filter_some, if_pos (by simp only [decide_eq_true_eq]; omega)]
  · split
    · rw [Option.filter_some, if_neg (by simp only [decide_eq_true_eq]; omega)]
    · split
      · rw [Option.filter_some, if_neg (by simp only [decide_eq_true_eq]; omega)]
      · rfl

theorem mapM_digitValue? {s : List Char} {values : List Nat} :
    s.mapM (digitValue? 10) = some values ↔
      (∀ c ∈ s, c.isDigit = true) ∧ values = s.map fun c => c.toNat - '0'.toNat := by
  induction s generalizing values with
  | nil => exact ⟨fun h => ⟨by simp, (Option.some.inj h).symm⟩, fun h => by rw [h.2]; rfl⟩
  | cons c s ih =>
    simp only [List.mapM_cons, digitValue?_ten, Option.bind_eq_bind, Option.bind_eq_some_iff, ih,
      List.forall_mem_cons, List.map_cons, Option.pure_def, Option.some_inj]
    constructor
    · rintro ⟨d, hd, rest, ⟨hs, rfl⟩, rfl⟩
      split at hd
      · next hc => exact ⟨⟨hc, hs⟩, by rw [Option.some.inj hd]⟩
      · cases hd
    · rintro ⟨⟨hc, hs⟩, rfl⟩
      exact ⟨_, if_pos hc, _, ⟨hs, rfl⟩, rfl⟩

theorem ofDigits_map (s : List Char) :
    ofDigits 10 (s.map fun c => c.toNat - '0'.toNat) = Nat.ofDigitChars 10 s 0 := by
  simp only [ofDigits, Nat.ofDigitChars, List.foldl_map, Nat.mul_comm]

theorem readNat?_eq_some_iff {s : List Char} {n : Nat} : readNat? 10 s = some n ↔ Writes s n := by
  unfold readNat?
  split
  · next hnil =>
    refine iff_of_false (by simp) fun h => h.ne_nil (List.isEmpty_iff.1 hnil)
  · next hne =>
    simp only [Option.map_eq_some_iff, mapM_digitValue?]
    constructor
    · rintro ⟨values, ⟨hs, rfl⟩, hn⟩
      exact ⟨by simpa using hne, hs, (ofDigits_map s).symm.trans hn⟩
    · rintro ⟨-, hs, hn⟩
      exact ⟨_, ⟨hs, rfl⟩, (ofDigits_map s).trans hn⟩

theorem writes_toString (n : Nat) : Writes (toString n).toList n := by
  rw [Nat.toString_eq_repr, Nat.toList_repr]
  exact ⟨Nat.toDigits_ne_nil,
    fun c hc => Nat.isDigit_of_mem_toDigits (by decide) (by decide) hc,
    Nat.ofDigitChars_ten_toDigits⟩

theorem readNat?_toString (n : Nat) : readNat? 10 (toString n).toList = some n :=
  readNat?_eq_some_iff.2 (writes_toString n)

end ClientRoutes.Text
