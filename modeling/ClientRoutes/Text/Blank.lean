/-
  Blank characters and trimming.

  A blank is a character with the Unicode property White_Space. `trim` drops
  blanks at both ends of a text and keeps everything between.
-/

namespace ClientRoutes.Text

/-- Whether a character separates words: a blank, a tab, a line or page break,
or one of the wider spaces of Unicode. -/
def isBlank (c : Char) : Bool :=
  let n := c.toNat
  (9 ≤ n && n ≤ 13) || n == 0x20 || n == 0x85 || n == 0xA0 || n == 0x1680 ||
    (0x2000 ≤ n && n ≤ 0x200A) || n == 0x2028 || n == 0x2029 || n == 0x202F ||
    n == 0x205F || n == 0x3000

/-- A text without the blanks in front of it. -/
def trimLeft (s : List Char) : List Char := s.dropWhile isBlank

/-- A text without the blanks behind it. -/
def trimRight (s : List Char) : List Char := (s.reverse.dropWhile isBlank).reverse

/-- A text without the blanks around it. -/
def trim (s : List Char) : List Char := trimRight (trimLeft s)

/-- What core calls white space is blank. -/
theorem isBlank_of_isWhitespace {c : Char} (h : c.isWhitespace = true) : isBlank c = true := by
  simp only [Char.isWhitespace, Bool.or_eq_true, decide_eq_true_eq] at h
  rcases h with ((rfl | rfl) | rfl) | rfl <;> rfl

@[simp] theorem trim_nil : trim [] = [] := rfl

end ClientRoutes.Text
