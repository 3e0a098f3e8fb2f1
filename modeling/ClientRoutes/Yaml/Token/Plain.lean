import ClientRoutes.Yaml.Token.Folding

/-
  Scalars without quotes.

  A plain scalar ends at a comment, at a colon that ends a word, at a bracket or
  comma inside a flow collection, at a document mark, or where the text goes
  left of the scalar's margin.
-/

namespace ClientRoutes.Yaml.Plain

/-- Whether a character has a meaning of its own inside a flow collection. -/
def isFlowIndicator (c : Char) : Bool :=
  c == ',' || c == '[' || c == ']' || c == '\x7b' || c == '\x7d'

/-- The characters of a plain scalar up to the next gap or the end of the
scalar. Inside a flow collection a colon before an indicator is refused. -/
def word (flow : Bool) : List Char → Except Error (List Char)
  | [] => .ok []
  | c :: rest =>
    if isSpaceOrBreak c then .ok []
    else if flow && c == ':' && rest.head?.any fun d => isFlowIndicator d || d == '?' then
      .error .token
    else if (c == ':' && endsWord rest) || (flow && isFlowIndicator c) then .ok []
    else (word flow rest).map (c :: ·)

/-- The text of a plain scalar in reverse, on top of `done`, the gap behind it,
and where it ends. The fuel bounds the number of words. -/
def scan (flow : Bool) (margin : Nat) : Nat → List Char → Gap → Cursor →
    Except Error (List Char × Gap × Cursor)
  | 0, done, gap, c => .ok (done, gap, c)
  | fuel + 1, done, gap, c =>
    if c.atDocumentMark || c.rest.head? == some '#' then .ok (done, gap, c)
    else do
      let chars ← word flow c.rest
      let c := c.skip chars.length
      let (done, gap) := if chars.isEmpty then (done, gap)
        else (chars.reverseAux (gap.folded.reverseAux done), Gap.none)
      if c.rest.head?.any isSpaceOrBreak then
        let (gap, c) ← Gap.extend margin c.left gap c
        if !flow && c.column < margin then .ok (done, gap, c)
        else scan flow margin fuel done gap c
      else .ok (done, gap, c)

/-- A plain scalar: its text, whether it is followed by a line break, and where
it ends. -/
def read (flow : Bool) (margin : Nat) (c : Cursor) : Except Error (String × Bool × Cursor) := do
  let (text, gap, c) ← scan flow margin (c.left + 1) [] Gap.none c
  return (String.ofList text.reverse, gap.broken, c)

end ClientRoutes.Yaml.Plain
