import ClientRoutes.Text.Digit

/-
  A place in a YAML text.

  A cursor is what is left of the text, how many characters that is, and where it
  starts: the bytes in front of it, its line and its column. `skip` passes
  characters within a line and `readBreak` passes the end of a line, giving the
  line break in its normal form.

  What is proved:
    1. `skip_rest`, `skip_left`, `skip_offset`, `skip_column` — skipping drops
       characters and moves right.
-/

namespace ClientRoutes.Yaml

/-- Why a YAML text is refused. -/
inductive Error where
  /-- A character that no YAML text may hold. -/
  | character
  /-- Characters that form no token. -/
  | token
  /-- A key without the colon it needs, or a key, value or item out of place. -/
  | key
  /-- Tokens that form no document. -/
  | arrangement
  /-- A tag with an unknown handle, or at odds with its value. -/
  | tag
  /-- An alias without an anchor. -/
  | anchor
  /-- Too many open containers. -/
  | depth
  /-- Too many uses of aliases. -/
  | repetition
  /-- A key that a mapping already has. -/
  | duplicate
  /-- A number that is out of range. -/
  | range
  deriving DecidableEq, Repr

/-- What is left of a text, and where it starts. -/
structure Cursor where
  rest : List Char
  /-- The number of characters left. -/
  left : Nat
  /-- The number of bytes passed. -/
  offset : Nat
  line : Nat
  column : Nat
  left_eq : left = rest.length
  deriving Repr

/-- Whether a character ends a line. -/
def isBreak (c : Char) : Bool :=
  c == '\n' || c == '\r' || c == '\x85' || c == '\u2028' || c == '\u2029'

/-- Whether a character is a blank within a line. -/
def isSpace (c : Char) : Bool := c == ' ' || c == '\t'

/-- Whether a character is a blank or ends a line. -/
def isSpaceOrBreak (c : Char) : Bool := isSpace c || isBreak c

/-- Whether a character may be part of a name. -/
def isNameChar (c : Char) : Bool :=
  ('0' ≤ c && c ≤ '9') || ('A' ≤ c && c ≤ 'Z') || ('a' ≤ c && c ≤ 'z') || c == '_' || c == '-'

/-- Whether a character may stand in a YAML text at all. -/
def isAllowed (c : Char) : Bool :=
  let n := c.toNat
  n == 0x09 || n == 0x0A || n == 0x0D || (0x20 ≤ n && n ≤ 0x7E) || n == 0x85 ||
    (0xA0 ≤ n && n ≤ 0xD7FF) || (0xE000 ≤ n && n ≤ 0xFFFD) || 0x10000 ≤ n

/-- Whether a text is at its end, at a blank, or at the end of a line. -/
def endsWord (s : List Char) : Bool := s.head?.all isSpaceOrBreak

/-- Whether a text is at its end or at the end of a line. -/
def endsLine (s : List Char) : Bool := s.head?.all isBreak

/-- The number of bytes of a text. -/
def byteSize (s : List Char) : Nat := s.foldl (fun n c => n + c.utf8Size) 0

namespace Cursor

/-- The start of a text. -/
def start (s : List Char) : Cursor := ⟨s, s.length, 0, 0, 0, rfl⟩

/-- Passes `n` characters of the line. -/
def skip (c : Cursor) (n : Nat) : Cursor :=
  ⟨c.rest.drop n, c.left - n, c.offset + byteSize (c.rest.take n), c.line, c.column + n, by
    rw [List.length_drop, c.left_eq]⟩

/-- The cursor at the start of the next line, behind a line break of `n`
characters. -/
def nextLine (c : Cursor) (n : Nat) : Cursor :=
  ⟨c.rest.drop n, c.left - n, c.offset + byteSize (c.rest.take n), c.line + 1, 0, by
    rw [List.length_drop, c.left_eq]⟩

/-- Passes a byte order mark in front of a line. -/
def skipByteOrderMark (c : Cursor) : Cursor :=
  if c.column == 0 && c.rest.head? == some '\ufeff' then c.skip 1 else c

/-- Passes the characters at the front that satisfy a test, and gives them. -/
def spanLine (c : Cursor) (test : Char → Bool) : List Char × Cursor :=
  let front := c.rest.takeWhile test
  (front, c.skip front.length)

/-- Passes the blanks at the front. -/
def skipSpaces (c : Cursor) : Cursor := (c.spanLine isSpace).2

/-- Passes a comment, if there is one, up to the end of its line. -/
def skipComment (c : Cursor) : Cursor :=
  match c.rest with
  | '#' :: _ => (c.spanLine (!isBreak ·)).2
  | _ => c

/-- Passes the end of a line and gives the line break: a line feed, or a line
or paragraph separator as it is. Anywhere else nothing happens. -/
def readBreak (c : Cursor) : List Char × Cursor :=
  match c.rest with
  | '\r' :: '\n' :: _ => (['\n'], c.nextLine 2)
  | d :: _ =>
    if isBreak d then
      let text := if d == '\u2028' || d == '\u2029' then d else '\n'
      ([text], c.nextLine 1)
    else ([], c)
  | [] => ([], c)

/-- Passes the end of a line. -/
def skipBreak (c : Cursor) : Cursor := c.readBreak.2

/-- Whether the cursor is at the start of a line that begins or ends a
document. -/
def atDocumentMark (c : Cursor) : Bool :=
  c.column == 0 &&
    match c.rest with
    | '-' :: '-' :: '-' :: rest => endsWord rest
    | '.' :: '.' :: '.' :: rest => endsWord rest
    | _ => false

@[simp] theorem skip_rest (c : Cursor) (n : Nat) : (c.skip n).rest = c.rest.drop n := rfl

@[simp] theorem skip_left (c : Cursor) (n : Nat) : (c.skip n).left = c.left - n := rfl

@[simp] theorem skip_offset (c : Cursor) (n : Nat) :
    (c.skip n).offset = c.offset + byteSize (c.rest.take n) := rfl

@[simp] theorem skip_column (c : Cursor) (n : Nat) : (c.skip n).column = c.column + n := rfl

end Cursor

end ClientRoutes.Yaml
