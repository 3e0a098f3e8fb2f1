import ClientRoutes.Number.Notation
import ClientRoutes.Route
import ClientRoutes.Text.Digit

/-
  Durations of the cache settings.

  A duration is a number of milliseconds, `Infinity`, `static`, or a sum of
  hours, minutes and seconds such as `1h30m`. A sum is written out as an
  expression in milliseconds, with a readable comment.
-/

namespace ClientRoutes

/-- A duration ready to be written into a hook. -/
structure Timing where
  expression : String
  comment : Option String
  deriving DecidableEq, Repr

namespace Timing

/-- The units a duration may be given in. -/
inductive TimeUnit where
  | hour
  | minute
  | second
  deriving DecidableEq, Repr

namespace TimeUnit

/-- The unit a letter stands for. -/
def ofLetter? : Char → Option TimeUnit
  | 'h' => some .hour
  | 'm' => some .minute
  | 's' => some .second
  | _ => none

/-- The milliseconds of a unit, as a product. -/
def factors : TimeUnit → String
  | .hour => "60 * 60 * 1000"
  | .minute => "60 * 1000"
  | .second => "1000"

/-- The name of a unit. -/
def name : TimeUnit → String
  | .hour => "hour"
  | .minute => "minute"
  | .second => "second"

/-- The milliseconds of a unit. -/
def milliseconds : TimeUnit → Nat
  | .hour => 3600000
  | .minute => 60000
  | .second => 1000

end TimeUnit

/-- So many units. -/
structure Amount where
  count : Nat
  unit : TimeUnit
  deriving DecidableEq, Repr

namespace Amount

/-- The amount as a product in milliseconds. -/
def term (a : Amount) : String := toString a.count ++ " * " ++ a.unit.factors

/-- The amount in words. -/
def label (a : Amount) : String :=
  toString a.count ++ " " ++ a.unit.name ++ (if a.count = 1 then "" else "s")

end Amount

/-- The number of 64 bits that some digits write. -/
def count? (digits : List Char) : Option Nat :=
  (Text.readNat? 10 digits).filter (· ≤ Text.maxUInt64)

/-- The amounts a text consists of, behind some digits that are already read. -/
def amounts? (digits : List Char) : List Char → Option (List Amount)
  | [] => if digits.isEmpty then some [] else none
  | c :: rest =>
    if Text.isDecimal c then amounts? (digits ++ [c]) rest
    else do
      let unit ← TimeUnit.ofLetter? c
      let count ← count? digits
      let others ← amounts? [] rest
      return ⟨count, unit⟩ :: others

/-- The sum of some amounts. -/
def sum (amounts : List Amount) : Timing where
  expression := " + ".intercalate (amounts.map Amount.term)
  comment := some (" ".intercalate (amounts.map Amount.label))

/-- A number of milliseconds; a whole one below `10 ^ 15` without a sign on
zero. -/
def ofNumber (x : Binary64) : String :=
  match x.toInt? with
  | some i => if i.natAbs < Nat.pow 10 15 then toString i else x.render Binary64.plain
  | none => x.render Binary64.plain

/-- The duration a text without blanks around it gives. -/
def ofText? (s : List Char) : Option Timing :=
  if s = "Infinity".toList then some ⟨"Infinity", none⟩
  else if s = "static".toList then some ⟨"'static'", none⟩
  else if !s.isEmpty && s.all Text.isDecimal then
    (count? s).map fun n => ⟨toString n, none⟩
  else ((amounts? [] s).filter (!·.isEmpty)).map sum

/-- The duration a literal gives, if it has a known form. -/
def ofLiteral? : DurationLiteral → Option Timing
  | .number x => if x.isFinite then some ⟨ofNumber x, none⟩ else none
  | .text s => ofText? (Text.trim s.toList)

end Timing

end ClientRoutes
