import ClientRoutes.Assoc
import ClientRoutes.Json
import ClientRoutes.Text.Digit

/-
  Reading JSON text.

  The grammar is the standard one: four blank characters, no byte order mark, no
  trailing commas, no leading zeros, surrogate escapes only in pairs. A name that
  is repeated keeps its first place and gets the last value. At most `maxDepth`
  lists and records may be open at once.

  Numbers: digits are gathered into a significand of 64 bits, and digits that no
  longer fit only move the decimal point. A number without point and exponent
  whose digits all fit is whole; every other one is the significand, multiplied
  or divided once by a power of ten. A number too large for a double is refused.
-/

namespace ClientRoutes.Json

open ClientRoutes.Text

/-- How many lists and records may be open at once. -/
def maxDepth : Nat := 127

/-- Whether a character is a JSON blank. -/
def isSpace (c : Char) : Bool := c == ' ' || c == '\t' || c == '\n' || c == '\r'

/-- The text without the blanks in front. -/
def skipSpace (s : List Char) : List Char := s.dropWhile isSpace

/-! ## Numbers -/

/-- Appends digits to a significand while it fits 64 bits; the digits that did
not fit are handed back. -/
def gather (significand : Nat) : List Char → Nat × List Char
  | [] => (significand, [])
  | c :: rest =>
    let next := significand * 10 + (c.toNat - '0'.toNat)
    if next ≤ maxUInt64 then gather next rest else (significand, c :: rest)

/-- A power of ten as a double. -/
def powerOfTen (k : Nat) : Binary64 := Binary64.ofRatio false (Nat.pow 10 k) 1

/-- `x * 10 ^ exponent`, or nothing if that is too large. Negative exponents
beyond the largest power of ten are divided out in steps. -/
def shiftDecimal : Nat → Binary64 → Int → Option Binary64
  | 0, x, _ => some x
  | steps + 1, x, exponent =>
    if exponent.natAbs ≤ 308 then
      if 0 ≤ exponent then
        let y := x.mul (powerOfTen exponent.natAbs)
        if y.isFinite then some y else none
      else some (x.div (powerOfTen exponent.natAbs))
    else if x.isZero then some x
    else if 0 ≤ exponent then none
    else shiftDecimal steps (x.div (powerOfTen 308)) (exponent + 308)

/-- The double `significand * 10 ^ exponent`. Three steps bring every
significand of 64 bits down to zero. -/
def decimalDouble (negative : Bool) (significand : Nat) (exponent : Int) : Option Number :=
  (shiftDecimal 4 (Binary64.ofInt significand) exponent).map fun x =>
    .real (if negative then x.neg else x)

/-- The sign and the digits of an exponent, and what follows. -/
def readExponent (s : List Char) : Option (Bool × List Char × List Char) :=
  let (negative, s) := match s with
    | '+' :: rest => (false, rest)
    | '-' :: rest => (true, rest)
    | _ => (false, s)
  match spanDigits s with
  | ([], _) => none
  | (digits, rest) => some (negative, digits, rest)

/-- The largest exponent that is taken at its value. -/
def maxExponent : Nat := Nat.pow 2 31 - 1

/-- A number whose significand and point are known and whose exponent follows. -/
def withExponent (negative : Bool) (significand : Nat) (start : Int) (s : List Char) :
    Option (Number × List Char) := do
  let (down, digits, rest) ← readExponent s
  let size := (readNat? 10 digits).getD 0
  if size > maxExponent then
    if significand ≠ 0 && !down then none
    else some (.real (.zero negative), rest)
  else
    let n ← decimalDouble negative significand (if down then start - size else start + size)
    some (n, rest)

/-- The end of a number after its digits: an exponent or nothing. -/
def finishNumber (negative : Bool) (significand : Nat) (exponent : Int) (s : List Char) :
    Option (Number × List Char) :=
  match s with
  | 'e' :: rest => withExponent negative significand exponent rest
  | 'E' :: rest => withExponent negative significand exponent rest
  | _ => do
    let n ← decimalDouble negative significand exponent
    some (n, s)

/-- A whole number; a negative zero and numbers below 64 bits are doubles. -/
def wholeNumber (negative : Bool) (significand : Nat) : Number :=
  if !negative then .integer significand
  else if significand == 0 || significand > Nat.pow 2 63 then
    .real (Binary64.ofRatio true significand 1)
  else .integer (-(significand : Int))

/-- A number after its sign. -/
def readUnsigned (negative : Bool) (s : List Char) : Option (Number × List Char) :=
  match spanDigits s with
  | ([], _) => none
  | ('0' :: _ :: _, _) => none
  | (digits, rest) =>
    let (significand, left) := gather 0 digits
    match rest with
    | '.' :: rest =>
      match spanDigits rest with
      | ([], _) => none
      | (fraction, rest) =>
        let (significand', unused) := gather significand fraction
        let used : Int := fraction.length - unused.length
        finishNumber negative significand' (left.length - used) rest
    | _ =>
      if left.isEmpty && rest.head? != some 'e' && rest.head? != some 'E' then
        some (wholeNumber negative significand, rest)
      else finishNumber negative significand left.length rest

/-! ## Texts -/

/-- The number four hexadecimal digits write. -/
def fourHex (a b c d : Char) : Option Nat := readNat? 16 [a, b, c, d]

/-- Whether a number is the first half of a surrogate pair. -/
def isHighSurrogate (n : Nat) : Bool := 0xD800 ≤ n && n ≤ 0xDBFF

/-- Whether a number is the second half of a surrogate pair. -/
def isLowSurrogate (n : Nat) : Bool := 0xDC00 ≤ n && n ≤ 0xDFFF

/-- The character of a surrogate pair. -/
def joinSurrogates (high low : Nat) : Char :=
  Char.ofNat (0x10000 + (high - 0xD800) * 0x400 + (low - 0xDC00))

/-- The characters of a text after its opening quote, in reverse order on top of
`done`, and what follows the closing quote. -/
def readChars (done : List Char) : List Char → Option (List Char × List Char)
  | '"' :: rest => some (done, rest)
  | '\\' :: 'u' :: a :: b :: c :: d :: rest => do
    let n ← fourHex a b c d
    if isLowSurrogate n then none
    else if isHighSurrogate n then
      match rest with
      | '\\' :: 'u' :: e :: f :: g :: h :: rest => do
        let low ← fourHex e f g h
        if isLowSurrogate low then readChars (joinSurrogates n low :: done) rest else none
      | _ => none
    else readChars (Char.ofNat n :: done) rest
  | '\\' :: '"' :: rest => readChars ('"' :: done) rest
  | '\\' :: '\\' :: rest => readChars ('\\' :: done) rest
  | '\\' :: '/' :: rest => readChars ('/' :: done) rest
  | '\\' :: 'b' :: rest => readChars ('\x08' :: done) rest
  | '\\' :: 'f' :: rest => readChars ('\x0c' :: done) rest
  | '\\' :: 'n' :: rest => readChars ('\n' :: done) rest
  | '\\' :: 'r' :: rest => readChars ('\r' :: done) rest
  | '\\' :: 't' :: rest => readChars ('\t' :: done) rest
  | '\\' :: _ => none
  | c :: rest => if c.toNat < 0x20 then none else readChars (c :: done) rest
  | [] => none

/-- A text after its opening quote. -/
def readText (s : List Char) : Option (String × List Char) :=
  (readChars [] s).map fun (done, rest) => (String.ofList done.reverse, rest)

/-! ## Values -/

mutual

/-- A value, with blanks in front of it. -/
def readValue : Nat → Nat → List Char → Option (Json × List Char)
  | 0, _, _ => none
  | fuel + 1, depth, s =>
    match skipSpace s with
    | 'n' :: 'u' :: 'l' :: 'l' :: rest => some (.null, rest)
    | 't' :: 'r' :: 'u' :: 'e' :: rest => some (.bool true, rest)
    | 'f' :: 'a' :: 'l' :: 's' :: 'e' :: rest => some (.bool false, rest)
    | '"' :: rest => (readText rest).map fun (t, rest) => (.text t, rest)
    | '-' :: rest => (readUnsigned true rest).map fun (n, rest) => (.number n, rest)
    | '[' :: rest =>
      match depth, skipSpace rest with
      | 0, _ => none
      | _ + 1, ']' :: rest => some (.list [], rest)
      | depth + 1, rest => (readItems fuel depth rest).map fun (xs, rest) => (.list xs, rest)
    | '\x7b' :: rest =>
      match depth, skipSpace rest with
      | 0, _ => none
      | _ + 1, '\x7d' :: rest => some (.record [], rest)
      | depth + 1, rest => (readFields fuel depth [] rest).map fun (fs, rest) => (.record fs, rest)
    | s => (readUnsigned false s).map fun (n, rest) => (.number n, rest)

/-- The items of a list up to its closing bracket; there is at least one. -/
def readItems : Nat → Nat → List Char → Option (List Json × List Char)
  | 0, _, _ => none
  | fuel + 1, depth, s => do
    let (x, rest) ← readValue fuel depth s
    match skipSpace rest with
    | ',' :: rest => (readItems fuel depth rest).map fun (xs, rest) => (x :: xs, rest)
    | ']' :: rest => some ([x], rest)
    | _ => none

/-- The fields of a record up to its closing brace, on top of `done`; there is
at least one. -/
def readFields : Nat → Nat → List (String × Json) → List Char →
    Option (List (String × Json) × List Char)
  | 0, _, _, _ => none
  | fuel + 1, depth, done, s =>
    match skipSpace s with
    | '"' :: rest => do
      let (name, rest) ← readText rest
      match skipSpace rest with
      | ':' :: rest => do
        let (value, rest) ← readValue fuel depth rest
        let done := Assoc.set name value done
        match skipSpace rest with
        | ',' :: rest => readFields fuel depth done rest
        | '\x7d' :: rest => some (done, rest)
        | _ => none
      | _ => none
    | _ => none

end

/-- The value a JSON text writes. Every call of a reader is followed by the next
one after at least half a character, which bounds their number. -/
def read? (s : String) : Option Json := do
  let (value, rest) ← readValue (2 * s.length + 2) maxDepth s.toList
  if (skipSpace rest).isEmpty then some value else none

end ClientRoutes.Json
