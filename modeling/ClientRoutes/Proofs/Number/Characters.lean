import ClientRoutes.Number
import ClientRoutes.Proofs.Text.Digit

/-
  The characters of a number that is written down.

  What is proved:
    1. `Numeral.positionalDigits`, `Numeral.exponentDigits` — both notations of the digits of
       a double consist of characters of numbers.
    2. `Number.numeral_text` — so does the text of any number of a document, and it is not
       empty.
-/

namespace ClientRoutes

/-- A digit, a sign, a point, or a letter of an exponent, of `inf` or of `nan`. -/
def NumeralChar (c : Char) : Prop :=
  c.isDigit = true ∨ c ∈ ['-', '.', 'e', 'i', 'n', 'f', 'a']

/-- A text of characters of numbers. -/
structure Numeral (s : List Char) : Prop where
  ne_nil : s ≠ []
  characters : ∀ c ∈ s, NumeralChar c

theorem numeralChar_zero : NumeralChar '0' := .inl rfl

theorem numeralChar_minus : NumeralChar '-' := .inr (by decide)

theorem numeralChar_point : NumeralChar '.' := .inr (by decide)

namespace Numeral

theorem cons {s : List Char} (h : ∀ c ∈ s, NumeralChar c) {c : Char} (hc : NumeralChar c) :
    Numeral (c :: s) :=
  ⟨List.cons_ne_nil c s, List.forall_mem_cons.2 ⟨hc, h⟩⟩

theorem append {s t : List Char} (hs : Numeral s) (ht : ∀ c ∈ t, NumeralChar c) :
    Numeral (s ++ t) :=
  ⟨List.append_ne_nil_of_left_ne_nil hs.ne_nil t, List.forall_mem_append.2 ⟨hs.characters, ht⟩⟩

theorem toDigits (n : Nat) : Numeral (Nat.toDigits 10 n) :=
  ⟨Nat.toDigits_ne_nil, fun _ hc => .inl (Nat.isDigit_of_mem_toDigits (by decide) (by decide) hc)⟩

theorem toString_int (i : Int) : Numeral (toString i).toList := by
  cases i with
  | ofNat n =>
    have htext : (toString (Int.ofNat n)).toList = Nat.toDigits 10 n := Nat.toList_repr
    rw [htext]
    exact toDigits n
  | negSucc n =>
    have htext : (toString (Int.negSucc n)).toList = '-' :: Nat.toDigits 10 (n + 1) := by
      have hrepr : toString (Int.negSucc n) = "-" ++ Nat.repr (n + 1) := rfl
      rw [hrepr, String.toList_append, Nat.toList_repr]
      rfl
    rw [htext]
    exact cons (toDigits (n + 1)).characters numeralChar_minus

theorem zeros (n : Nat) : ∀ c ∈ Binary64.zeros n, NumeralChar c := by
  intro c hc
  rw [List.eq_of_mem_replicate hc]
  exact numeralChar_zero

/-! ## Doubles -/

theorem positionalDigits {ds : List Char} (h : Numeral ds) (style : Binary64.Style) (k : Int) :
    Numeral (Binary64.positionalDigits style ds k) := by
  unfold Binary64.positionalDigits
  dsimp only
  split
  · refine append (append h (zeros _)) ?_
    split
    · exact (cons (List.forall_mem_singleton.2 numeralChar_zero) numeralChar_point).characters
    · exact List.forall_mem_nil _
  · split
    · -- The point stands between two pieces of the digits, of which one may be empty.
      have hfront : ∀ c ∈ ds.take ((ds.length : Int) + k).toNat, NumeralChar c :=
        fun c hc => h.characters c (List.mem_of_mem_take hc)
      have hback : ∀ c ∈ ds.drop ((ds.length : Int) + k).toNat, NumeralChar c :=
        fun c hc => h.characters c (List.mem_of_mem_drop hc)
      have hpoint := cons hback numeralChar_point
      exact ⟨List.append_ne_nil_of_right_ne_nil _ hpoint.ne_nil,
        List.forall_mem_append.2 ⟨hfront, hpoint.characters⟩⟩
    · refine append (cons ?_ numeralChar_zero) h.characters
      exact (cons (zeros _) numeralChar_point).characters

theorem exponentDigits {ds : List Char} (h : Numeral ds) (k : Int) :
    Numeral (Binary64.exponentDigits ds k) := by
  have hexponent : Numeral ('e' :: (toString ((ds.length : Int) + k - 1)).toList) :=
    cons (toString_int _).characters (.inr (by decide))
  unfold Binary64.exponentDigits
  cases ds with
  | nil => exact hexponent
  | cons d ds =>
    obtain ⟨hd, hds⟩ := List.forall_mem_cons.1 h.characters
    cases ds with
    | nil => exact append h hexponent.characters
    | cons d' ds =>
      have hpoint := cons hds numeralChar_point
      exact append (cons hpoint.characters hd) hexponent.characters

theorem decimalDigits {ds : List Char} (h : Numeral ds) (style : Binary64.Style) (k : Int) :
    Numeral (Binary64.decimalDigits style ds k) := by
  unfold Binary64.decimalDigits
  split
  · exact h.positionalDigits style k
  · dsimp only
    split
    · exact h.positionalDigits style k
    · exact h.exponentDigits k

theorem signed {s : List Char} (h : Numeral s) (negative : Bool) :
    Numeral ((if negative then ['-'] else []) ++ s) := by
  cases negative with
  | false => exact h
  | true => exact cons h.characters numeralChar_minus

theorem render_scalar (x : Binary64) : Numeral (x.render Binary64.scalar).toList := by
  cases x with
  | nan =>
    have htext : Binary64.render Binary64.scalar .nan = ".nan" := rfl
    rw [htext]
    exact ⟨by decide, by simp [NumeralChar]⟩
  | infinite negative =>
    have hinfinity : Numeral ".inf".toList := ⟨by decide, by simp [NumeralChar]⟩
    have htext : (Binary64.render Binary64.scalar (.infinite negative)).toList =
        (if negative then ['-'] else []) ++ ".inf".toList := by
      cases negative <;> rfl
    rw [htext]
    exact hinfinity.signed negative
  | finite negative m e =>
    rw [Binary64.render, String.toList_ofList]
    refine signed ?_ negative
    split
    · exact positionalDigits (cons (List.forall_mem_nil _) numeralChar_zero) _ 0
    · exact (toDigits _).decimalDigits _ _

end Numeral

/-- A number of a document is written in characters of numbers. -/
theorem Number.numeral_text (n : Number) : Numeral n.text.toList := by
  cases n with
  | integer i => exact Numeral.toString_int i
  | real x => exact Numeral.render_scalar x

end ClientRoutes
