import ClientRoutes.Yaml.Cursor

/-
  Block scalars: literal (`|`) and folded (`>`).

  The header may fix the indentation and say what happens to the line breaks at
  the end. Without a fixed indentation the first line that is not empty sets it.
-/

namespace ClientRoutes.Yaml.Block

/-- What happens to the line breaks at the end of a block scalar. -/
inductive Chomping where
  | strip
  | clip
  | keep
  deriving DecidableEq, Repr

/-- The header of a block scalar behind its first character. -/
structure Header where
  chomping : Chomping
  /-- The fixed indentation, counted from that of the parent. -/
  increment : Option Nat
  deriving DecidableEq, Repr

/-- A chomping sign at the front of a text. -/
def readSign (c : Cursor) : Option (Chomping × Cursor) :=
  match c.rest with
  | '+' :: _ => some (.keep, c.skip 1)
  | '-' :: _ => some (.strip, c.skip 1)
  | _ => none

/-- A digit at the front of a text; zero is refused. -/
def readIncrement (c : Cursor) : Except Error (Option Nat × Cursor) :=
  match c.rest.head?.bind Text.decimalValue? with
  | some 0 => .error .token
  | some n => .ok (some n, c.skip 1)
  | none => .ok (none, c)

/-- The header of a block scalar, up to and including the end of its line. -/
def readHeader (c : Cursor) : Except Error (Header × Cursor) := do
  let (header, c) ← match readSign c with
    | some (chomping, c) => do
      let (increment, c) ← readIncrement c
      pure (Header.mk chomping increment, c)
    | none => do
      let (increment, c) ← readIncrement c
      match increment, readSign c with
      | some n, some (chomping, c) => pure (Header.mk chomping (some n), c)
      | _, _ => pure (Header.mk .clip increment, c)
  let c := c.skipSpaces.skipComment
  if endsLine c.rest then return (header, c.skipBreak) else .error .token

/-- Passes indentation and empty lines. With `indent` zero any indentation is
passed. Gives the line breaks and the widest indentation seen. A tab within the
indentation is refused. -/
def skipEmpty (indent : Nat) : Nat → List Char → Nat → Cursor →
    Except Error (List Char × Nat × Cursor)
  | 0, breaks, widest, c => .ok (breaks, widest, c)
  | fuel + 1, breaks, widest, c =>
    let blanks := (c.rest.takeWhile (· == ' ')).length
    let c := c.skip (if indent == 0 then blanks else min blanks (indent - c.column))
    let widest := max widest c.column
    match c.rest with
    | [] => .ok (breaks, widest, c)
    | d :: _ =>
      if (indent == 0 || c.column < indent) && d == '\t' then .error .token
      else if isBreak d then
        let (text, c) := c.readBreak
        skipEmpty indent fuel (breaks ++ text) widest c
      else .ok (breaks, widest, c)

/-- The parts of a block scalar gathered so far. -/
structure Lines where
  /-- The text so far, in reverse. -/
  reversed : List Char
  /-- The break at the end of the last line. -/
  lastBreak : List Char
  /-- The breaks of the empty lines behind it. -/
  emptyBreaks : List Char
  /-- Whether the last line began with a blank. -/
  indented : Bool
  deriving Repr

/-- The text between the last line and a next one: the breaks as they are, or
folded where neither line begins with a blank. -/
def Lines.separator (l : Lines) (folding nextIndented : Bool) : List Char :=
  if folding && l.lastBreak == ['\n'] && !l.indented && !nextIndented then
    if l.emptyBreaks.isEmpty then [' '] else l.emptyBreaks
  else l.lastBreak ++ l.emptyBreaks

/-- The lines of a block scalar with indentation `indent`. -/
def readLines (folding : Bool) (indent : Nat) : Nat → Lines → Cursor →
    Except Error (Lines × Cursor)
  | 0, l, c => .ok (l, c)
  | fuel + 1, l, c =>
    if c.column == indent && !c.rest.isEmpty then do
      let nextIndented := c.rest.head?.any isSpace
      let gap := l.separator folding nextIndented
      let (line, c) := c.spanLine (!isBreak ·)
      let (lastBreak, c) := c.readBreak
      let (emptyBreaks, _, c) ← skipEmpty indent (c.left + 1) [] 0 c
      let reversed := line.reverseAux (gap.reverseAux l.reversed)
      readLines folding indent fuel ⟨reversed, lastBreak, emptyBreaks, nextIndented⟩ c
    else .ok (l, c)

/-- The text of a block scalar with its end treated as the header says. -/
def Lines.chomped (l : Lines) : Chomping → List Char
  | .strip => l.reversed.reverse
  | .clip => l.reversed.reverse ++ l.lastBreak
  | .keep => l.reversed.reverse ++ l.lastBreak ++ l.emptyBreaks

/-- A block scalar, from its first character on. The parent's indentation is
`parent`, `-1` for none. -/
def read (folding : Bool) (parent : Int) (c : Cursor) : Except Error (String × Cursor) := do
  let (header, c) ← readHeader (c.skip 1)
  let fixed : Nat := match header.increment with
    | some n => if 0 ≤ parent then parent.toNat + n else n
    | none => 0
  let (emptyBreaks, widest, c) ← skipEmpty fixed (c.left + 1) [] 0 c
  let indent := if fixed == 0 then max (max widest (parent + 1).toNat) 1 else fixed
  let (lines, c) ← readLines folding indent (c.left + 1) ⟨[], [], emptyBreaks, false⟩ c
  return (String.ofList (lines.chomped header.chomping), c)

end ClientRoutes.Yaml.Block
