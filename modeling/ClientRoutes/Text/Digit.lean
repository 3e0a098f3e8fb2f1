/-
  Digits and the whole numbers they write.

  What is proved:
    1. `ofDigits_append` — appending a digit multiplies by the base and adds.
-/

namespace ClientRoutes.Text

/-- The value of a decimal digit of ASCII. -/
def decimalValue? (c : Char) : Option Nat :=
  if '0' ≤ c && c ≤ '9' then some (c.toNat - '0'.toNat) else none

/-- The value of a hexadecimal digit of either case. -/
def hexValue? (c : Char) : Option Nat :=
  if '0' ≤ c && c ≤ '9' then some (c.toNat - '0'.toNat)
  else if 'a' ≤ c && c ≤ 'f' then some (c.toNat - 'a'.toNat + 10)
  else if 'A' ≤ c && c ≤ 'F' then some (c.toNat - 'A'.toNat + 10)
  else none

/-- Whether a character is a decimal digit of ASCII. -/
def isDecimal (c : Char) : Bool := (decimalValue? c).isSome

/-- The value of a digit in a base up to sixteen. -/
def digitValue? (base : Nat) (c : Char) : Option Nat :=
  (hexValue? c).filter (· < base)

/-- The number that digit values write, the most significant first. -/
def ofDigits (base : Nat) (values : List Nat) : Nat :=
  values.foldl (fun n d => n * base + d) 0

/-- The number a non-empty run of digits writes in a base. -/
def readNat? (base : Nat) (s : List Char) : Option Nat :=
  if s.isEmpty then none
  else (s.mapM (digitValue? base)).map (ofDigits base)

/-- The decimal digits at the front of a text, and what follows them. -/
def spanDigits (s : List Char) : List Char × List Char := s.span isDecimal

/-- The largest unsigned number of 64 bits. -/
def maxUInt64 : Nat := Nat.pow 2 64 - 1

/-- An unsigned number of 64 bits in decimal digits, after an optional plus
sign. -/
def readUInt64? (s : List Char) : Option Nat :=
  let digits := match s with
    | '+' :: rest => rest
    | _ => s
  (readNat? 10 digits).filter (· ≤ maxUInt64)

theorem ofDigits_append (base : Nat) (values : List Nat) (d : Nat) :
    ofDigits base (values ++ [d]) = ofDigits base values * base + d := by
  simp [ofDigits]

end ClientRoutes.Text
