import ClientRoutes.Number.Reader
import ClientRoutes.Toml.Item

/-
  TOML values without parts: texts, numbers, dates and times.

  Every reader takes the characters that are left and gives a value and the
  characters behind it.
-/

namespace ClientRoutes.Toml

open ClientRoutes.Text

/-- Whether a character is a blank within a line. -/
def isSpace (c : Char) : Bool := c == ' ' || c == '\t'

/-- Whether a character may stand in a comment or, apart from the quotes, in a
text: no control but the tab. -/
def isVisible (c : Char) : Bool :=
  c == '\t' || (0x20 ≤ c.toNat && c.toNat ≤ 0x7E) || 0x80 ≤ c.toNat

/-- The text behind a line end, if it begins with one. -/
def newLine? : List Char → Option (List Char)
  | '\n' :: rest => some rest
  | '\r' :: '\n' :: rest => some rest
  | _ => none

/-! ## Texts -/

/-- The character with a code point written in hexadecimal digits. -/
def codeChar? (digits : List Char) : Option Char := do
  let n ← readNat? 16 digits
  if n.isValidChar then some (Char.ofNat n) else none

/-- An escape behind its backslash. -/
def escape? (s : List Char) : Option (Char × List Char) :=
  match s with
  | 'b' :: rest => some ('\x08', rest)
  | 'f' :: rest => some ('\x0c', rest)
  | 'n' :: rest => some ('\n', rest)
  | 'r' :: rest => some ('\r', rest)
  | 't' :: rest => some ('\t', rest)
  | '"' :: rest => some ('"', rest)
  | '\\' :: rest => some ('\\', rest)
  | 'u' :: rest =>
    if rest.length < 4 then none
    else (codeChar? (rest.take 4)).map (·, rest.drop 4)
  | 'U' :: rest =>
    if rest.length < 8 then none
    else (codeChar? (rest.take 8)).map (·, rest.drop 8)
  | _ => none

/-- A text in double quotes behind the first one, in reverse and on top of
`done`. -/
def basicText : Nat → List Char → List Char → Option (List Char × List Char)
  | 0, _, _ => none
  | fuel + 1, done, s =>
    match s with
    | '"' :: rest => some (done, rest)
    | '\\' :: rest => do
      let (c, rest) ← escape? rest
      basicText fuel (c :: done) rest
    | c :: rest => if isVisible c then basicText fuel (c :: done) rest else none
    | [] => none

/-- A text in single quotes behind the first one. -/
def literalText (done : List Char) : List Char → Option (List Char × List Char)
  | '\'' :: rest => some (done, rest)
  | c :: rest => if isVisible c then literalText (c :: done) rest else none
  | [] => none

/-- The text behind blanks and line ends. -/
def skipSpaceAndLines : List Char → List Char
  | ' ' :: rest => skipSpaceAndLines rest
  | '\t' :: rest => skipSpaceAndLines rest
  | '\n' :: rest => skipSpaceAndLines rest
  | '\r' :: '\n' :: rest => skipSpaceAndLines rest
  | s => s

/-- The end of a text of several lines: three quotes, in front of which one or
two more may belong to the text. -/
def closeLines (quote : Char) (done s : List Char) : Option (List Char × List Char) :=
  let run := (s.takeWhile (· == quote)).length
  if run < 3 then none
  else
    let extra := min (run - 3) 2
    some (List.replicate extra quote ++ done, s.drop (3 + extra))

/-- A text of several lines between three double quotes. -/
def basicLines : Nat → List Char → List Char → Option (List Char × List Char)
  | 0, _, _ => none
  | fuel + 1, done, s =>
    match s with
    | '"' :: rest =>
      match closeLines '"' done s with
      | some result => some result
      | none => basicLines fuel ('"' :: done) rest
    | '\\' :: rest =>
      match newLine? (rest.dropWhile isSpace) with
      | some rest => basicLines fuel done (skipSpaceAndLines rest)
      | none => do
        let (c, rest) ← escape? rest
        basicLines fuel (c :: done) rest
    | c :: rest =>
      match newLine? s with
      | some rest => basicLines fuel ('\n' :: done) rest
      | none => if isVisible c then basicLines fuel (c :: done) rest else none
    | [] => none

/-- A text of several lines between three single quotes. -/
def literalLines : Nat → List Char → List Char → Option (List Char × List Char)
  | 0, _, _ => none
  | fuel + 1, done, s =>
    match s with
    | '\'' :: rest =>
      match closeLines '\'' done s with
      | some result => some result
      | none => literalLines fuel ('\'' :: done) rest
    | c :: rest =>
      match newLine? s with
      | some rest => literalLines fuel ('\n' :: done) rest
      | none => if isVisible c then literalLines fuel (c :: done) rest else none
    | [] => none

/-- A line end at the front of a text of several lines is not part of it. -/
def dropFirstLine (s : List Char) : List Char := (newLine? s).getD s

/-- A text within one line, in quotes of either kind. -/
def quotedText? (s : List Char) : Option (String × List Char) :=
  let found := match s with
    | '"' :: rest => basicText (rest.length + 1) [] rest
    | '\'' :: rest => literalText [] rest
    | _ => none
  found.map fun (done, rest) => (String.ofList done.reverse, rest)

/-- A text in quotes of any kind. -/
def text? (s : List Char) : Option (String × List Char) :=
  let found := match s with
    | '"' :: '"' :: '"' :: rest => basicLines (rest.length + 1) [] (dropFirstLine rest)
    | '\'' :: '\'' :: '\'' :: rest => literalLines (rest.length + 1) [] (dropFirstLine rest)
    | _ => none
  match found with
  | some (done, rest) => some (String.ofList done.reverse, rest)
  | none => match s with
    | '"' :: '"' :: '"' :: _ => none
    | '\'' :: '\'' :: '\'' :: _ => none
    | _ => quotedText? s

/-! ## Numbers -/

/-- Digits in a base, with single underscores between them. -/
def digits (base : Nat) : List Char → List Char × List Char
  | c :: '_' :: d :: rest =>
    if (digitValue? base c).isSome && (digitValue? base d).isSome then
      let (ds, rest') := digits base (d :: rest)
      (c :: ds, rest')
    else if (digitValue? base c).isSome then ([c], '_' :: d :: rest)
    else ([], c :: '_' :: d :: rest)
  | c :: rest =>
    if (digitValue? base c).isSome then
      let (ds, rest') := digits base rest
      (c :: ds, rest')
    else ([], c :: rest)
  | [] => ([], [])

/-- A number of a base behind its mark. -/
def basedInteger? (base : Nat) (s : List Char) : Option (Item × List Char) := do
  let (ds, rest) := digits base s
  let n ← readNat? base ds
  if n < Nat.pow 2 63 then some (.integer n, rest) else none

/-- A sign at the front. -/
def sign (s : List Char) : Bool × List Char :=
  match s with
  | '-' :: rest => (true, rest)
  | '+' :: rest => (false, rest)
  | _ => (false, s)

/-- The decimal digits of a whole number: no zero in front of other digits. -/
def wholeDigits? (s : List Char) : Option (List Char × List Char) :=
  match s with
  | '0' :: rest => some (['0'], rest)
  | _ =>
    match digits 10 s with
    | ([], _) => none
    | found => some found

/-- The exponent of a number, if there is one; it needs a digit. -/
def exponent? (s : List Char) : Option (Option (List Char) × List Char) :=
  match s with
  | c :: rest =>
    if c == 'e' || c == 'E' then
      let (negative, rest) := sign rest
      match digits 10 rest with
      | ([], _) => none
      | (ds, rest) => some (some (if negative then '-' :: ds else ds), rest)
    else some (none, s)
  | [] => some (none, s)

/-- Whether a number with these parts is too large. Only one without a minus
sign is refused. -/
def overflows (negative : Bool) (whole fraction : List Char) (exponent : Option (List Char)) :
    Bool :=
  let scale := match exponent with
    | some e => 'e' :: e
    | none => []
  !negative && (Binary64.readMagnitude? false (whole ++ '.' :: fraction ++ scale)).any (!·.isFinite)

/-- A decimal number. -/
def decimal? (s : List Char) : Option (Item × List Char) := do
  let (negative, s) := sign s
  match s with
  | 'i' :: 'n' :: 'f' :: rest => some (.real, rest)
  | 'n' :: 'a' :: 'n' :: rest => some (.real, rest)
  | _ =>
    let (whole, rest) ← wholeDigits? s
    match rest with
    | '.' :: rest =>
      match digits 10 rest with
      | ([], _) => none
      | (fraction, rest) => do
        let (exponent, rest) ← exponent? rest
        if overflows negative whole fraction exponent then none else some (.real, rest)
    | _ => do
      let (exponent, rest) ← exponent? rest
      if exponent.isSome then
        if overflows negative whole [] exponent then none else some (.real, rest)
      else
        let n ← readNat? 10 whole
        if negative then (if n ≤ Nat.pow 2 63 then some (.integer (-(n : Int)), rest) else none)
        else if n < Nat.pow 2 63 then some (.integer n, rest)
        else none

/-- A number. -/
def number? (s : List Char) : Option (Item × List Char) :=
  match s with
  | '0' :: 'x' :: rest => basedInteger? 16 rest
  | '0' :: 'o' :: rest => basedInteger? 8 rest
  | '0' :: 'b' :: rest => basedInteger? 2 rest
  | _ => decimal? s

/-! ## Dates and times -/

/-- A number of exactly `n` decimal digits within bounds. -/
def fixed? (n low high : Nat) (s : List Char) : Option (Nat × List Char) := do
  if (s.take n).length < n then none
  let value ← readNat? 10 (s.take n)
  if low ≤ value && value ≤ high then some (value, s.drop n) else none

/-- A character at the front. -/
def expect? (c : Char) (s : List Char) : Option (List Char) :=
  match s with
  | d :: rest => if c == d then some rest else none
  | [] => none

/-- Whether a year has a day more. -/
def isLeapYear (year : Nat) : Bool := year % 4 == 0 && (year % 100 != 0 || year % 400 == 0)

/-- The number of days of a month. -/
def daysOf (year month : Nat) : Nat :=
  if month == 2 then (if isLeapYear year then 29 else 28)
  else if month == 4 || month == 6 || month == 9 || month == 11 then 30
  else 31

/-- A number with zeros in front. -/
def padded (width n : Nat) : String :=
  let ds := Nat.toDigits 10 n
  String.ofList (List.replicate (width - ds.length) '0' ++ ds)

/-- A date, and its text. -/
def date? (s : List Char) : Option (String × List Char) := do
  let (year, s) ← fixed? 4 0 9999 s
  let s ← expect? '-' s
  let (month, s) ← fixed? 2 1 12 s
  let s ← expect? '-' s
  let (day, s) ← fixed? 2 1 (daysOf year month) s
  return (padded 4 year ++ "-" ++ padded 2 month ++ "-" ++ padded 2 day, s)

/-- The fraction of a second: at most nine digits, without zeros at the end. -/
def fraction? (s : List Char) : Option (String × List Char) :=
  match s with
  | '.' :: rest =>
    match spanDigits rest with
    | ([], _) => none
    | (ds, rest) =>
      let kept := ((ds.take 9).reverse.dropWhile (· == '0')).reverse
      some (if kept.isEmpty then "" else "." ++ String.ofList kept, rest)
  | _ => some ("", s)

/-- A time of the day, and its text. -/
def time? (s : List Char) : Option (String × List Char) := do
  let (hour, s) ← fixed? 2 0 23 s
  let s ← expect? ':' s
  let (minute, s) ← fixed? 2 0 59 s
  let s ← expect? ':' s
  let (second, s) ← fixed? 2 0 60 s
  let (fraction, s) ← fraction? s
  return (padded 2 hour ++ ":" ++ padded 2 minute ++ ":" ++ padded 2 second ++ fraction, s)

/-- The offset of a time from universal time, if it has one. -/
def offset? (s : List Char) : Option (String × List Char) :=
  match s with
  | 'Z' :: rest => some ("Z", rest)
  | 'z' :: rest => some ("Z", rest)
  | c :: rest =>
    if c == '+' || c == '-' then do
      let (hour, rest) ← fixed? 2 0 23 rest
      let rest ← expect? ':' rest
      let (minute, rest) ← fixed? 2 0 59 rest
      let mark := if c == '-' && (hour != 0 || minute != 0) then "-" else "+"
      return (mark ++ padded 2 hour ++ ":" ++ padded 2 minute, rest)
    else some ("", s)
  | [] => some ("", [])

/-- A date, maybe with a time behind it. -/
def dateTime? (s : List Char) : Option (String × List Char) := do
  let (date, s) ← date? s
  let timed := match s with
    | c :: rest => if c == 'T' || c == 't' || c == ' ' then time? rest else none
    | [] => none
  match timed with
  | some (time, rest) => do
    let (offset, rest) ← offset? rest
    return (date ++ "T" ++ time ++ offset, rest)
  | none => return (date, s)

/-- A date, a time, or both. -/
def datetime? (s : List Char) : Option (Item × List Char) :=
  (dateTime? s <|> time? s).map fun (text, rest) => (.datetime text, rest)

end ClientRoutes.Toml
