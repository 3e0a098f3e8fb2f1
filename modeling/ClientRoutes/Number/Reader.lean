import ClientRoutes.Number
import ClientRoutes.Text.Digit

/-
  Reading a decimal number that may have a point and an exponent.

  `readDecimal?` takes digits with at most one point, at least one digit around
  it, and an optional exponent, and gives the nearest double. The sign in front
  may be a plus or a minus.
-/

namespace ClientRoutes.Binary64

open ClientRoutes.Text

/-- An exponent behind its letter: a sign and at least one digit, to the end of
the text. -/
def readExponent? (s : List Char) : Option Int :=
  match s with
  | '+' :: rest => (readNat? 10 rest).map Int.ofNat
  | '-' :: rest => (readNat? 10 rest).map fun n => -(n : Int)
  | _ => (readNat? 10 s).map Int.ofNat

/-- The part of a number behind its digits: an exponent, or nothing. -/
def readScale? (s : List Char) : Option Int :=
  match s with
  | [] => some 0
  | 'e' :: rest => readExponent? rest
  | 'E' :: rest => readExponent? rest
  | _ => none

/-- A number without its sign. -/
def readMagnitude? (negative : Bool) (s : List Char) : Option Binary64 := do
  let (whole, rest) := spanDigits s
  let (fraction, rest) := match rest with
    | '.' :: rest => spanDigits rest
    | _ => ([], rest)
  let exponent ← readScale? rest
  let mantissa ← readNat? 10 (whole ++ fraction)
  return ofDecimal negative mantissa (exponent - fraction.length)

/-- A number with an optional sign. -/
def readDecimal? (s : List Char) : Option Binary64 :=
  match s with
  | '+' :: rest => readMagnitude? false rest
  | '-' :: rest => readMagnitude? true rest
  | _ => readMagnitude? false s

end ClientRoutes.Binary64
