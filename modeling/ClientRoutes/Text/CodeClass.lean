/-
  Classes of code points.

  A class is the increasing list of the code points at which membership
  changes, read from "not a member". `contains` walks the list two boundaries
  at a time and stops as soon as the code point is passed.

  What is proved:
    1. `contains_nil`, `contains_cons_cons` — the two ways a walk goes on.
    2. `not_contains_of_lt` — nothing below the first boundary is a member.
-/

namespace ClientRoutes.Text

/-- A class of code points, given by the code points where membership
changes. -/
structure CodeClass where
  bounds : List Nat
  deriving DecidableEq, Repr

namespace CodeClass

/-- Whether a code point lies between an odd and an even boundary. -/
def within : List Nat → Nat → Bool
  | [], _ => false
  | [low], n => low ≤ n
  | low :: high :: rest, n => if n < low then false else n < high || within rest n

/-- Whether a code point belongs to the class. -/
def contains (k : CodeClass) (n : Nat) : Bool :=
  within k.bounds n

@[simp] theorem contains_nil (n : Nat) : contains ⟨[]⟩ n = false := rfl

theorem contains_cons_cons (low high : Nat) (rest : List Nat) (n : Nat) :
    contains ⟨low :: high :: rest⟩ n =
      if n < low then false else n < high || contains ⟨rest⟩ n := rfl

theorem not_contains_of_lt {low : Nat} {rest : List Nat} {n : Nat} (h : n < low) :
    contains ⟨low :: rest⟩ n = false := by
  cases rest with
  | nil => simp [contains, within, h]
  | cons high rest => simp [contains, within, h]

end CodeClass

end ClientRoutes.Text
