import ClientRoutes.Number.Reader
import ClientRoutes.Value
import ClientRoutes.Yaml.Cursor
import ClientRoutes.Yaml.Tag

/-
  What an unquoted scalar means.

  A scalar without quotes is null, a truth value, a whole number, a double, or
  else a text. Digits behind a leading zero are a text, and a whole number that
  does not fit 64 bits but fits 128 bits is refused.
-/

namespace ClientRoutes.Yaml.Scalar

open ClientRoutes.Text

/-- Whether a text is one of the spellings of null. -/
def isNull (s : String) : Bool := s == "null" || s == "Null" || s == "NULL" || s == "~"

/-- The truth value a text spells. -/
def bool? (s : String) : Option Bool :=
  if s == "true" || s == "True" || s == "TRUE" then some true
  else if s == "false" || s == "False" || s == "FALSE" then some false
  else none

/-- Whether a text is a run of digits with a leading zero, after an optional
sign. -/
def isPaddedDigits (s : List Char) : Bool :=
  let digits := match s with
    | '+' :: rest => rest
    | '-' :: rest => rest
    | _ => s
  digits.length > 1 && digits.head? == some '0' && digits.all isDecimal

/-- The magnitude of a whole number without its sign: digits behind `0x`, `0o`
or `0b`, or decimal digits. -/
def magnitude? (padded : Bool) (s : List Char) : Option Nat :=
  match s with
  | '0' :: 'x' :: rest => readNat? 16 rest
  | '0' :: 'o' :: rest => readNat? 8 rest
  | '0' :: 'b' :: rest => readNat? 2 rest
  | _ => if padded then none else readNat? 10 s

/-- The whole number a text writes. -/
def integer? (s : List Char) : Option Int :=
  match s with
  | '-' :: rest => (magnitude? (isPaddedDigits s) rest).map fun n => -(n : Int)
  | '+' :: rest => (magnitude? (isPaddedDigits s) rest).map Int.ofNat
  | _ => (magnitude? (isPaddedDigits s) s).map Int.ofNat

/-- What becomes of a whole number: it is kept, refused, or too large even to be
refused. -/
inductive Fit where
  | kept
  | refused
  | beyond
  deriving DecidableEq, Repr

/-- How a whole number fits the bounds of 64 and 128 bits. -/
def fit (i : Int) : Fit :=
  if -Int.ofNat (Nat.pow 2 63) ≤ i && i < Int.ofNat (Nat.pow 2 64) then .kept
  else if -Int.ofNat (Nat.pow 2 127) ≤ i && i < Int.ofNat (Nat.pow 2 128) then .refused
  else .beyond

/-- The double a text writes, the special ones included. -/
def double? (s : String) : Option Binary64 :=
  let chars := s.toList
  let unsigned := match chars with
    | '+' :: rest => rest
    | _ => chars
  let name := String.ofList unsigned
  if chars.head? == some '+' && (unsigned.head? == some '+' || unsigned.head? == some '-') then none
  else if name == ".inf" || name == ".Inf" || name == ".INF" then some (.infinite false)
  else if s == "-.inf" || s == "-.Inf" || s == "-.INF" then some (.infinite true)
  else if s == ".nan" || s == ".NaN" || s == ".NAN" then some .nan
  else (Binary64.readDecimal? unsigned).filter Binary64.isFinite

/-- A whole number as a value, if the text writes one that is kept or refused. -/
def integerValue? (s : String) : Option (Except Error Value) :=
  match integer? s.toList with
  | none => none
  | some i =>
    match fit i with
    | .kept => some (.ok (.number (.integer i)))
    | .refused => some (.error .range)
    | .beyond => none

/-- The meaning of a scalar without quotes and without tag. -/
def plain (s : String) : Except Error Value :=
  if s.isEmpty || isNull s then .ok .null
  else match bool? s with
    | some b => .ok (.bool b)
    | none =>
      match integerValue? s with
      | some v => v
      | none =>
        if isPaddedDigits s.toList then .ok (.text s)
        else match double? s with
          | some x => .ok (.number (.real x))
          | none => .ok (.text s)

/-- The meaning of a scalar whose tag does not change it. -/
def untagged (s : String) (unquoted : Bool) : Except Error Value :=
  if unquoted then plain s else .ok (.text s)

/-- The meaning of a scalar with a tag. Under a type its text has to be of that
type, and under a foreign tag it is a text in any case. -/
def tagged (tag : Tag) (s : String) (unquoted : Bool) : Except Error Value :=
  let required (v : Option Value) : Except Error Value :=
    match v with
    | some v => .ok v
    | none => .error .tag
  match tag with
  | .bool => required ((bool? s).map .bool)
  | .int => (integerValue? s).getD (.error .tag)
  | .float => required ((double? s).map (.number ∘ .real))
  | .null => required (if isNull s then some .null else none)
  | .named name => (untagged s unquoted).map (.tagged name)
  | .nameless => untagged s unquoted
  | .foreign => .ok (.text s)

end ClientRoutes.Yaml.Scalar
