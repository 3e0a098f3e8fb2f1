/-
  Double-precision numbers as exact values.

  A finite double is a sign, a mantissa and a binary exponent, so that every
  operation here is arithmetic on natural numbers. `ofRatio` rounds a ratio to
  the nearest double, a half going to the even neighbour; the product and the
  quotient of two doubles are the rounded exact ones.

  What is proved:
    1. `roundHalfEven_one` — a whole number is its own rounding.
    2. `le_roundHalfEven`, `roundHalfEven_le` — a rounding is one of the two
       neighbours of the ratio.
-/

namespace ClientRoutes

/-- A double: `mantissa * 2 ^ exponent` with a sign, an infinity, or not a
number. The mantissa of a finite one is below `2 ^ 53`, and it is at least
`2 ^ 52` unless the exponent is the least, `-1074`. -/
inductive Binary64 where
  | finite (negative : Bool) (mantissa : Nat) (exponent : Int)
  | infinite (negative : Bool)
  | nan
  deriving DecidableEq, Repr, Inhabited

namespace Binary64

/-- The exponent of the smallest doubles. -/
def minExponent : Int := -1074

/-- The exponent of the largest doubles. -/
def maxExponent : Int := 971

/-- Zero with a sign. -/
def zero (negative : Bool) : Binary64 := .finite negative 0 minExponent

/-- The whole number nearest to `num / den`, a half going to the even one. -/
def roundHalfEven (num den : Nat) : Nat :=
  let q := num / den
  let r := num % den
  if 2 * r > den || (2 * r == den && q % 2 == 1) then q + 1 else q

theorem roundHalfEven_one (n : Nat) : roundHalfEven n 1 = n := by
  simp [roundHalfEven, Nat.mod_one]

theorem le_roundHalfEven (num den : Nat) : num / den ≤ roundHalfEven num den := by
  unfold roundHalfEven
  dsimp only
  split <;> omega

theorem roundHalfEven_le (num den : Nat) : roundHalfEven num den ≤ num / den + 1 := by
  unfold roundHalfEven
  dsimp only
  split <;> omega

/-- The ratio `num / den` divided by `2 ^ e`, as a ratio of whole numbers. -/
def scale (num den : Nat) (e : Int) : Nat × Nat :=
  match e with
  | .ofNat k => (num, den <<< k)
  | .negSucc k => (num <<< (k + 1), den)

/-- The greatest `k` with `2 ^ k ≤ num / den`. -/
def floorLog2 (num den : Nat) : Int :=
  let k : Int := num.log2 - den.log2
  let (n, d) := scale num den k
  if n < d then k - 1 else k

/-- The double nearest to `num / den`, a half going to the even mantissa, with
the given sign. -/
def ofRatio (negative : Bool) (num den : Nat) : Binary64 :=
  if num == 0 then zero negative
  else
    let e := max (floorLog2 num den - 52) minExponent
    let (n, d) := scale num den e
    let m := roundHalfEven n d
    let (m, e) := if m == Nat.pow 2 53 then (Nat.pow 2 52, e + 1) else (m, e)
    if e > maxExponent then .infinite negative else .finite negative m e

/-- The double nearest to a whole number. -/
def ofInt (i : Int) : Binary64 := ofRatio (i < 0) i.natAbs 1

/-- The double nearest to `mantissa * 10 ^ exponent`. Exponents far out of
range are answered without computing the power. -/
def ofDecimal (negative : Bool) (mantissa : Nat) (exponent : Int) : Binary64 :=
  let size : Int := Nat.log2 mantissa
  if mantissa == 0 then zero negative
  else if exponent > 400 then .infinite negative
  else if size + 3 * exponent < -1200 && exponent < -400 then zero negative
  else match exponent with
    | .ofNat k => ofRatio negative (mantissa * Nat.pow 10 k) 1
    | .negSucc k => ofRatio negative mantissa (Nat.pow 10 (k + 1))

/-- The sign bit. -/
def isNegative : Binary64 → Bool
  | .finite s .. => s
  | .infinite s => s
  | .nan => false

/-- Whether a double is neither infinite nor not a number. -/
def isFinite : Binary64 → Bool
  | .finite .. => true
  | _ => false

/-- Whether a double is a zero of either sign. -/
def isZero : Binary64 → Bool
  | .finite _ 0 _ => true
  | _ => false

/-- The whole number a double is, if it is one. -/
def toInt? : Binary64 → Option Int
  | .finite s m e =>
    let magnitude : Option Nat := match e with
      | .ofNat k => some (m <<< k)
      | .negSucc k => if m % Nat.pow 2 (k + 1) == 0 then some (m >>> (k + 1)) else none
    magnitude.map fun (n : Nat) => if s then -(n : Int) else (n : Int)
  | _ => none

/-- Numeric equality of finite and infinite doubles; not a number equals
itself, and the two zeros are equal. -/
def same (x y : Binary64) : Bool :=
  x == y || (x.isZero && y.isZero)

/-- A finite double as a ratio of whole numbers, without its sign. -/
def ratio (m : Nat) (e : Int) : Nat × Nat :=
  match e with
  | .ofNat k => (m <<< k, 1)
  | .negSucc k => (m, 1 <<< (k + 1))

/-- The rounded product of two doubles. -/
def mul : Binary64 → Binary64 → Binary64
  | .finite s m e, .finite s' m' e' =>
    let (n, d) := ratio m e
    let (n', d') := ratio m' e'
    ofRatio (s != s') (n * n') (d * d')
  | .nan, _ => .nan
  | _, .nan => .nan
  | x, y => if x.isZero || y.isZero then .nan else .infinite (x.isNegative != y.isNegative)

/-- The rounded quotient of two doubles. -/
def div : Binary64 → Binary64 → Binary64
  | .finite s m e, .finite s' m' e' =>
    let (n, d) := ratio m e
    let (n', d') := ratio m' e'
    if m' == 0 then (if m == 0 then .nan else .infinite (s != s'))
    else ofRatio (s != s') (n * d') (d * n')
  | .infinite s, .finite s' .. => .infinite (s != s')
  | .finite s .., .infinite s' => zero (s != s')
  | _, _ => .nan

/-- A double with the opposite sign. -/
def neg : Binary64 → Binary64
  | .finite s m e => .finite (!s) m e
  | .infinite s => .infinite (!s)
  | .nan => .nan

end Binary64

end ClientRoutes
