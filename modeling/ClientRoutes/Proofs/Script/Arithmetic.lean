import ClientRoutes.Proofs.Text.Digit
import ClientRoutes.Proofs.Text.Edit
import ClientRoutes.Proofs.Text.Trimming
import Mathlib.Algebra.GroupWithZero.Nat

/-
  The value of a sum of products in generated code.

  A sum is cut at its plus signs first and each term at its stars, so products bind
  tighter; blanks around an operand do not count. Numbers are whole and decimal.

  What is proved:
    1. `operands_intercalate` — operands that are joined by a sign are cut apart again.
    2. `product?_productText` — a product that is written down has its value.
    3. `map_product?_operands`, `value?_of_terms` — the terms of a sum, and its value.
-/

namespace ClientRoutes.Script

open Text

/-- What stands between the occurrences of a sign, without the blanks around it. -/
def operands (sign : Char) (s : List Char) : List (List Char) := (split sign s).map trim

/-- The value of a product of decimal numbers. -/
def product? (s : List Char) : Option Nat := ((operands '*' s).mapM (readNat? 10)).map List.prod

/-- The value of a sum of such products. -/
def value? (s : List Char) : Option Nat := ((operands '+' s).mapM product?).map List.sum

/-- A sign with a blank on either side. -/
def spaced (sign : Char) : List Char := [' ', sign, ' ']

section
variable {sign : Char}

theorem operands_append (hblank : sign ≠ ' ') {s : List Char} (hs : sign ∉ s) (t : List Char) :
    operands sign (s ++ spaced sign ++ t) = trim s :: operands sign t := by
  have hcut : s ++ spaced sign ++ t = (s ++ [' ']) ++ sign :: (' ' :: t) := by simp [spaced]
  have hfront : split sign (s ++ [' ']) = [s ++ [' ']] :=
    split_of_not_mem (by simp [hs, hblank])
  have hback : (split sign (' ' :: t)).map trim = (split sign t).map trim := by
    have hone : split sign ([' '] ++ t) = (split sign t).modifyHead ([' '] ++ ·) :=
      split_append_of_not_mem (by simpa using hblank) t
    obtain ⟨part, parts, hparts⟩ := List.exists_cons_of_ne_nil (split_ne_nil sign t)
    rw [← List.singleton_append, hone, hparts, List.modifyHead_cons, List.map_cons,
      List.map_cons, List.singleton_append, trim_cons (by decide)]
  rw [operands, hcut, split_append, hfront, List.map_append, hback, List.map_singleton,
    trim_concat (by decide)]
  rfl

theorem operands_intercalate (hblank : sign ≠ ' ') {parts : List (List Char)} (hne : parts ≠ [])
    (hsign : ∀ part ∈ parts, sign ∉ part) (htrim : ∀ part ∈ parts, Trimmed part) :
    operands sign ((spaced sign).intercalate parts) = parts := by
  induction parts with
  | nil => exact absurd rfl hne
  | cons part parts ih =>
    obtain ⟨hpart, hsign⟩ := List.forall_mem_cons.1 hsign
    obtain ⟨htrimmed, htrim⟩ := List.forall_mem_cons.1 htrim
    by_cases hnil : parts = []
    · subst hnil
      rw [List.intercalate_singleton, operands, split_of_not_mem hpart, List.map_singleton,
        htrimmed.trim_eq]
    · rw [List.intercalate_cons_of_ne_nil hnil, operands_append hblank hpart,
        ih hnil hsign htrim, htrimmed.trim_eq]

end

theorem mapM_eq_some_of_map {α β : Type} {f : α → Option β} {as : List α} {bs : List β}
    (h : as.map f = bs.map some) : as.mapM f = some bs := by
  induction as generalizing bs with
  | nil =>
    obtain rfl := List.map_eq_nil_iff.1 h.symm
    rfl
  | cons a as ih =>
    obtain ⟨b, rest, rfl, hb, hrest⟩ := List.map_eq_cons_iff.1 h.symm
    rw [List.mapM_cons, ← hb, ih hrest.symm]
    rfl

/-! ## Products -/

/-- The product of some numbers as it is written. -/
def productText (numbers : List Nat) : List Char :=
  (spaced '*').intercalate (numbers.map fun n => (toString n).toList)

theorem product?_productText {numbers : List Nat} (hne : numbers ≠ []) :
    product? (productText numbers) = some numbers.prod := by
  have hoperands : operands '*' (productText numbers) =
      numbers.map fun n => (toString n).toList :=
    operands_intercalate (by decide) (by simpa using hne)
      (List.forall_mem_map.2 fun n _ => (writes_toString n).not_mem (by decide))
      (List.forall_mem_map.2 fun n _ => (writes_toString n).trimmed)
  have hread : (numbers.map fun n => (toString n).toList).map (readNat? 10) =
      numbers.map some := by
    rw [List.map_map]
    exact List.map_congr_left fun n _ => readNat?_toString n
  rw [product?, hoperands, mapM_eq_some_of_map hread]
  rfl

theorem trimmed_productText (numbers : List Nat) : Trimmed (productText numbers) :=
  .intercalate (List.forall_mem_map.2 fun n _ => (writes_toString n).trimmed)
    (List.forall_mem_map.2 fun n _ => (writes_toString n).ne_nil) _

theorem plus_not_mem_productText (numbers : List Nat) : '+' ∉ productText numbers := by
  intro hmem
  rcases mem_of_mem_intercalate hmem with hmem | ⟨part, hpart, hmem⟩
  · exact absurd hmem (by decide)
  · obtain ⟨n, -, rfl⟩ := List.mem_map.1 hpart
    exact (writes_toString n).not_mem (by decide) hmem

/-! ## Sums -/

/-- A sum of products of numbers has one term for each product, with its value. -/
theorem map_product?_operands {products : List (List Nat)} (hne : products ≠ [])
    (h : ∀ numbers ∈ products, numbers ≠ []) :
    (operands '+' ((spaced '+').intercalate (products.map productText))).map product? =
      products.map fun numbers => some numbers.prod := by
  have hoperands : operands '+' ((spaced '+').intercalate (products.map productText)) =
      products.map productText :=
    operands_intercalate (by decide) (by simpa using hne)
      (List.forall_mem_map.2 fun numbers _ => plus_not_mem_productText numbers)
      (List.forall_mem_map.2 fun numbers _ => trimmed_productText numbers)
  rw [hoperands, List.map_map]
  exact List.map_congr_left fun numbers hmem => product?_productText (h numbers hmem)

theorem value?_of_terms {s : List Char} {values : List Nat}
    (h : (operands '+' s).map product? = values.map some) : value? s = some values.sum := by
  rw [value?, mapM_eq_some_of_map h]
  rfl

end ClientRoutes.Script
