import ClientRoutes.Number.Binary64

/-
  The fewest decimal digits that read back as a double.

  Around a finite double lies the interval of the numbers that round to it; its
  ends belong to it when the mantissa is even. The search tries the decimal
  grids `10 ^ k` from coarse to fine. On each grid only the two neighbours of
  the double can lie in the interval, and the first grid with a neighbour in the
  interval gives the fewest digits. Of two such neighbours the nearer one wins;
  an exact tie goes as `Tie` says.
-/

namespace ClientRoutes.Binary64

/-- Which of two equally near decimals is taken. -/
inductive Tie where
  | up
  | even
  deriving DecidableEq, Repr

/-- A positive decimal `digits * 10 ^ exponent`. -/
structure Decimal where
  digits : Nat
  exponent : Int
  deriving DecidableEq, Repr

/-- The interval around `mantissa * 2 ^ exponent`, in quarters of its last bit:
the lower end, the double itself, and the upper end. Below a power of two the
neighbour is nearer. -/
structure Interval where
  low : Nat
  mid : Nat
  high : Nat
  closed : Bool
  deriving DecidableEq, Repr

/-- The interval of the numbers that round to a double. -/
def interval (m : Nat) (e : Int) : Interval where
  low := if m == Nat.pow 2 52 && e > minExponent then 4 * m - 1 else 4 * m - 2
  mid := 4 * m
  high := 4 * m + 2
  closed := m % 2 == 0

/-- Whether `d` grid steps lie in the interval, a quarter being `num / den`
steps. -/
def Interval.holds (i : Interval) (num den d : Nat) : Bool :=
  if i.closed then i.low * num ≤ d * den && d * den ≤ i.high * num
  else i.low * num < d * den && d * den < i.high * num

/-- The neighbour of the double on the grid of steps `den / num` that lies in
the interval, the nearer one if both do. -/
def Interval.onGrid (i : Interval) (tie : Tie) (num den : Nat) : Option Nat :=
  let d := i.mid * num / den
  let below := i.mid * num - d * den
  let above := (d + 1) * den - i.mid * num
  match i.holds num den d, i.holds num den (d + 1) with
  | true, true =>
    if below < above then some d
    else if above < below then some (d + 1)
    else match tie with
      | .up => some (d + 1)
      | .even => some (if d % 2 == 0 then d else d + 1)
  | true, false => some d
  | false, true => some (d + 1)
  | false, false => none

/-- A quarter of the last bit, `2 ^ (e - 2)`, as a ratio in steps of
`10 ^ k`. -/
def quarterInSteps (e k : Int) : Nat × Nat :=
  let two : Nat × Nat := match e - 2 with
    | .ofNat j => (1 <<< j, 1)
    | .negSucc j => (1, 1 <<< (j + 1))
  match k with
  | .ofNat j => (two.1, two.2 * Nat.pow 10 j)
  | .negSucc j => (two.1 * Nat.pow 10 (j + 1), two.2)

/-- Tries the grid `10 ^ k` and then the finer ones. Nineteen grids below the
first digit always contain one that meets the interval. -/
def searchGrid (i : Interval) (tie : Tie) (e : Int) : Nat → Int → Decimal
  | 0, k => ⟨0, k⟩
  | fuel + 1, k =>
    let (num, den) := quarterInSteps e k
    match i.onGrid tie num den with
    | some d => ⟨d, k⟩
    | none => searchGrid i tie e fuel (k - 1)

/-- The shortest decimal that reads back as `m * 2 ^ e`, for a positive `m`. -/
def shortest (tie : Tie) (m : Nat) (e : Int) : Decimal :=
  let top : Int := (e + m.log2 + 1) * 30103 / 100000 + 2
  searchGrid (interval m e) tie e 24 top

end ClientRoutes.Binary64
