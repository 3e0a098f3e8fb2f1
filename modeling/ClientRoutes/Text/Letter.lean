import ClientRoutes.Text.Letter.Classes
import ClientRoutes.Text.Letter.CaseMap

/-
  Letters and their case.

  `kind` puts every character into one of five classes; the first four are the
  ones words are made of. `upper` and `lower` give the full case mappings, so
  one letter may become several (`ß` is `SS` in capitals). `lowerWord` lowers a
  whole word and writes a capital sigma that closes it as a final sigma.
-/

namespace ClientRoutes.Text

/-- What a character is to a reader of words. -/
inductive Letter.Kind where
  | upper
  | lower
  | digit
  | caseless
  | other
  deriving DecidableEq, Repr

namespace Letter

/-- Whether a character is an uppercase letter. -/
def isUpper (c : Char) : Bool := uppercase.contains c.toNat

/-- Whether a character is a lowercase letter. -/
def isLower (c : Char) : Bool := lowercase.contains c.toNat

/-- Whether a character is a letter of a script without case. -/
def isCaseless (c : Char) : Bool := caseless.contains c.toNat

/-- Whether a character is one of the ten digits of ASCII. -/
def isDigit (c : Char) : Bool := '0' ≤ c && c ≤ '9'

/-- The class of a character. -/
def kind (c : Char) : Kind :=
  if isUpper c then .upper
  else if isLower c then .lower
  else if isDigit c then .digit
  else if isCaseless c then .caseless
  else .other

/-- Whether a character is part of a word. -/
def isWordChar (c : Char) : Bool := kind c != .other

/-- The characters of a list of code points. -/
def ofCodes (codes : List Nat) : List Char := codes.map Char.ofNat

/-- A letter in capitals. -/
def upper (c : Char) : List Char :=
  match expandingUpper.lookup c.toNat with
  | some codes => ofCodes codes
  | none => [Char.ofNat (Shift.image upperShifts c.toNat)]

/-- A letter in small letters. -/
def lower (c : Char) : List Char :=
  match expandingLower.lookup c.toNat with
  | some codes => ofCodes codes
  | none => [Char.ofNat (Shift.image lowerShifts c.toNat)]

/-- A text in capitals. -/
def upperText (s : List Char) : List Char := s.flatMap upper

/-- A text in small letters, each letter on its own. -/
def lowerText (s : List Char) : List Char := s.flatMap lower

/-- A word in small letters. A capital sigma that ends the word after another
letter becomes a final sigma, every other one the ordinary small sigma. -/
def lowerWord (s : List Char) : List Char :=
  match s.reverse with
  | 'Σ' :: c :: rest => lowerText (rest.reverse ++ [c]) ++ ['ς']
  | _ => lowerText s

theorem lowerText_append (s t : List Char) : lowerText (s ++ t) = lowerText s ++ lowerText t :=
  List.flatMap_append ..

theorem upperText_append (s t : List Char) : upperText (s ++ t) = upperText s ++ upperText t :=
  List.flatMap_append ..

end Letter

end ClientRoutes.Text
