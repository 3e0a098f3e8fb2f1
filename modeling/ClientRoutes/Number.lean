import ClientRoutes.Number.Notation

/-
  Numbers of a document: whole numbers and doubles.

  The two kinds are never equal to each other. A whole number is written in
  decimal digits, a double in the `scalar` style.
-/

namespace ClientRoutes

/-- A number of a document. -/
inductive Number where
  | integer (value : Int)
  | real (value : Binary64)
  deriving DecidableEq, Repr, Inhabited

namespace Number

/-- The number as text. -/
def text : Number → String
  | .integer i => toString i
  | .real x => x.render Binary64.scalar

/-- The number as a double. -/
def toBinary64 : Number → Binary64
  | .integer i => Binary64.ofInt i
  | .real x => x

/-- Equality of numbers of one kind; doubles compare by value. -/
def same : Number → Number → Bool
  | .integer i, .integer j => i == j
  | .real x, .real y => x.same y
  | _, _ => false

end Number

end ClientRoutes
