import ClientRoutes.Number.Shortest

/-
  How a number is written down.

  `Style` holds the decisions of a number format; `render` applies it to the
  shortest decimal of a double. Two styles are used: `plain` for numbers that
  become part of an expression, and `scalar` for numbers that become text in a
  document.
-/

namespace ClientRoutes.Binary64

/-- The decisions of a number format. -/
structure Style where
  /-- Which of two equally near decimals is written. -/
  tie : Tie
  /-- Whether a whole number ends in `.0`. -/
  pointZero : Bool
  /-- The places of the decimal point, counted from the first digit, between
  which no exponent is written (the lower one excluded); no bounds, no
  exponent. -/
  positional : Option (Int × Int)
  /-- The text of an infinity. -/
  infinity : String
  /-- The text of what is not a number. -/
  notANumber : String
  deriving DecidableEq, Repr

/-- Digits without exponent and without `.0`. -/
def plain : Style := ⟨.up, false, none, "inf", "NaN"⟩

/-- A point in every number written without exponent, and an exponent below
`10 ^ -5` and from `10 ^ 16` on. -/
def scalar : Style := ⟨.even, true, some (-5, 16), ".inf", ".nan"⟩

/-- Some zeros. -/
def zeros (n : Nat) : List Char := List.replicate n '0'

/-- Digits `ds` times `10 ^ k` without exponent. -/
def positionalDigits (s : Style) (ds : List Char) (k : Int) : List Char :=
  let place : Int := ds.length + k
  if 0 ≤ k then ds ++ zeros k.toNat ++ (if s.pointZero then ['.', '0'] else [])
  else if 0 < place then ds.take place.toNat ++ '.' :: ds.drop place.toNat
  else '0' :: '.' :: zeros (-place).toNat ++ ds

/-- Digits `ds` times `10 ^ k` with an exponent. -/
def exponentDigits (ds : List Char) (k : Int) : List Char :=
  let exponent : Int := ds.length + k - 1
  let mantissa := match ds with
    | [] => []
    | [d] => [d]
    | d :: rest => d :: '.' :: rest
  mantissa ++ 'e' :: (toString exponent).toList

/-- Digits `ds` times `10 ^ k`. -/
def decimalDigits (s : Style) (ds : List Char) (k : Int) : List Char :=
  match s.positional with
  | none => positionalDigits s ds k
  | some (low, high) =>
    let place : Int := ds.length + k
    if low < place && place ≤ high then positionalDigits s ds k else exponentDigits ds k

/-- A double in a style. -/
def render (s : Style) : Binary64 → String
  | .nan => s.notANumber
  | .infinite negative => (if negative then "-" else "") ++ s.infinity
  | .finite negative m e =>
    let body :=
      if m == 0 then positionalDigits s ['0'] 0
      else
        let d := shortest s.tie m e
        decimalDigits s (Nat.toDigits 10 d.digits) d.exponent
    String.ofList ((if negative then ['-'] else []) ++ body)

end ClientRoutes.Binary64
