import ClientRoutes.Text.Hidden

/-
  A text between double quotes, as messages show it.

  Quotes and backslashes take a backslash, the usual controls their short
  escapes, and any other character that would not show as itself its code point
  in braces.
-/

namespace ClientRoutes.Text.Quoted

/-- The code point of a character in the form `\u{1f600}`. -/
def codeEscape (c : Char) : List Char :=
  "\\u\x7b".toList ++ Nat.toDigits 16 c.toNat ++ ['\x7d']

/-- One character of a quoted text. -/
def escape (c : Char) : List Char :=
  match c with
  | '\x00' => ['\\', '0']
  | '\t' => ['\\', 't']
  | '\r' => ['\\', 'r']
  | '\n' => ['\\', 'n']
  | '\\' => ['\\', '\\']
  | '"' => ['\\', '"']
  | c => if isHidden c then codeEscape c else [c]

/-- A text between double quotes. -/
def encode (s : String) : String :=
  String.ofList ('"' :: s.toList.flatMap escape ++ ['"'])

end ClientRoutes.Text.Quoted
