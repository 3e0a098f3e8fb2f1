import ClientRoutes.Yaml.Cursor

/-
  Blanks inside a scalar that spans several lines.

  Between two words of such a scalar stands a gap. A gap within a line is kept
  as it is. A gap with line breaks is folded: one line feed becomes a blank, and
  of several the first is dropped.
-/

namespace ClientRoutes.Yaml

/-- The blanks and line breaks between two words of a scalar. -/
structure Gap where
  /-- Blanks before any line break. -/
  spaces : List Char
  /-- The first line break. -/
  firstBreak : List Char
  /-- The line breaks after the first one. -/
  laterBreaks : List Char
  /-- Whether the gap goes beyond its first line. -/
  broken : Bool
  deriving DecidableEq, Repr

namespace Gap

/-- No gap. -/
def none : Gap := ⟨[], [], [], false⟩

/-- A gap that begins behind an escaped line break. -/
def afterEscapedBreak : Gap := ⟨[], [], [], true⟩

/-- What the gap contributes to the text of the scalar. -/
def folded (g : Gap) : List Char :=
  if !g.broken then g.spaces
  else if g.firstBreak == ['\n'] then
    if g.laterBreaks.isEmpty then [' '] else g.laterBreaks
  else g.firstBreak ++ g.laterBreaks

/-- Extends a gap over all blanks and line breaks at the cursor. In a later line,
a tab left of the column `margin` is refused. The fuel bounds the number of
characters passed. -/
def extend (margin : Nat) : Nat → Gap → Cursor → Except Error (Gap × Cursor)
  | 0, g, c => .ok (g, c)
  | fuel + 1, g, c =>
    match c.rest with
    | [] => .ok (g, c)
    | d :: _ =>
      if isSpace d then
        if g.broken && c.column < margin && d == '\t' then .error .token
        else
          let g := if g.broken then g else { g with spaces := g.spaces ++ [d] }
          extend margin fuel g (c.skip 1)
      else if isBreak d then
        let (text, c) := c.readBreak
        let g := if g.broken then { g with laterBreaks := g.laterBreaks ++ text }
          else { g with spaces := [], firstBreak := text, broken := true }
        extend margin fuel g c
      else .ok (g, c)

end Gap

end ClientRoutes.Yaml
