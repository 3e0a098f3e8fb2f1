import ClientRoutes.Yaml.Token.Block
import ClientRoutes.Yaml.Token.Name
import ClientRoutes.Yaml.Token.Plain
import ClientRoutes.Yaml.Token.Quoted

/-
  From the text of a YAML document to its tokens.

  Three things are remembered along the way. The indentation of the open block
  collections: going right of it opens a collection, going left closes some. How
  many flow collections are open. And, for each of them, the token that may turn
  out to be a key when a colon follows; `key` and, where needed, the start of a
  mapping are then put in front of that token.

  A key without a sign of its own lies within one line, and no more than 1024
  bytes lie between its start and its colon.
-/

namespace ClientRoutes.Yaml

/-- A token that may turn out to be a key. -/
structure KeyCandidate where
  /-- The number of tokens in front of it. -/
  position : Nat
  /-- Whether nothing but a key can stand there. -/
  required : Bool
  /-- The number of bytes in front of it. -/
  offset : Nat
  line : Nat
  column : Nat
  deriving Repr

/-- What is known after reading a part of the text. -/
structure Lexer where
  cursor : Cursor
  tokens : Array Token
  /-- The indentation of the innermost block collection, `-1` for none. -/
  indent : Int
  /-- The indentations of the collections around it. -/
  outerIndents : List Int
  /-- The possible key of the innermost collection. -/
  candidate : Option KeyCandidate
  /-- The possible keys of the collections around the open flow collections. -/
  outerCandidates : List (Option KeyCandidate)
  /-- Whether a key without a sign of its own may begin here. -/
  keyAllowed : Bool

namespace Lexer

/-- The state in front of a text. -/
def start (s : List Char) : Lexer := ⟨.start s, #[], -1, [], none, [], true⟩

/-- Whether a flow collection is open. -/
def inFlow (l : Lexer) : Bool := !l.outerCandidates.isEmpty

/-- Appends a token. -/
def emit (l : Lexer) (t : Token) : Lexer := { l with tokens := l.tokens.push t }

/-- Puts a token in front of the one at a position. -/
def insert (l : Lexer) (position : Nat) (t : Token) : Lexer :=
  { l with tokens := l.tokens.insertIdxIfInBounds position t }

/-- Passes `n` characters. -/
def skip (l : Lexer) (n : Nat) : Lexer := { l with cursor := l.cursor.skip n }

/-! ## Blanks -/

/-- Passes blanks, comments and line ends up to the next token, and one byte
order mark in front of each line. In block context a tab is passed only where no
key may begin, and a new line allows a key. -/
def skipToToken : Nat → Lexer → Lexer
  | 0, l => l
  | fuel + 1, l =>
    let tabs := l.inFlow || !l.keyAllowed
    let (_, c) := l.cursor.skipByteOrderMark.spanLine fun d => d == ' ' || (d == '\t' && tabs)
    let c := c.skipComment
    if c.rest.head?.any isBreak then
      skipToToken fuel { l with cursor := c.skipBreak, keyAllowed := l.keyAllowed || !l.inFlow }
    else { l with cursor := c }

/-! ## Keys -/

/-- Gives up a candidate; a required one is an error. -/
def dropCandidate (k : Option KeyCandidate) : Except Error (Option KeyCandidate) :=
  match k with
  | some k => if k.required then .error .key else .ok none
  | none => .ok none

/-- Gives up a candidate that lies too far back. -/
def dropStale (c : Cursor) (k : Option KeyCandidate) : Except Error (Option KeyCandidate) :=
  match k with
  | some p => if p.line < c.line || p.offset + 1024 < c.offset then dropCandidate k else .ok k
  | none => .ok none

/-- Gives up all candidates that lie too far back. -/
def dropStaleKeys (l : Lexer) : Except Error Lexer := do
  let candidate ← dropStale l.cursor l.candidate
  let outer ← l.outerCandidates.mapM (dropStale l.cursor)
  return { l with candidate := candidate, outerCandidates := outer }

/-- Gives up the candidate of the innermost collection. -/
def dropKey (l : Lexer) : Except Error Lexer := do
  let candidate ← dropCandidate l.candidate
  return { l with candidate := candidate }

/-- Makes the token that comes next a candidate, if a key may begin here. -/
def saveKey (l : Lexer) : Except Error Lexer :=
  if l.keyAllowed then do
    let l ← l.dropKey
    let c := l.cursor
    let required := !l.inFlow && l.indent == (c.column : Int)
    return { l with candidate := some ⟨l.tokens.size, required, c.offset, c.line, c.column⟩ }
  else .ok l

/-! ## Indentation -/

/-- Opens a block collection at a column right of the indentation. With a
position its start is put there, else at the end. -/
def indentTo (l : Lexer) (column : Nat) (position : Option Nat) (t : Token) : Lexer :=
  if !l.inFlow && l.indent < (column : Int) then
    let l := { l with outerIndents := l.indent :: l.outerIndents, indent := column }
    match position with
    | some n => l.insert n t
    | none => l.emit t
  else l

/-- Closes the block collections whose indentation is right of a column. -/
def closeBlocks (column : Int) : List Int → Int → Array Token → List Int × Int × Array Token
  | outer, indent, tokens =>
    if indent ≤ column then (outer, indent, tokens)
    else match outer with
      | [] => ([], -1, tokens.push .blockEnd)
      | i :: outer => closeBlocks column outer i (tokens.push .blockEnd)

/-- Closes block collections in block context. -/
def unindentTo (l : Lexer) (column : Int) : Lexer :=
  if l.inFlow then l
  else
    let (outer, indent, tokens) := closeBlocks column l.outerIndents l.indent l.tokens
    { l with outerIndents := outer, indent := indent, tokens := tokens }

/-! ## Tokens -/

/-- A token that is neither a key nor ends one: a directive or document mark. -/
def startLine (l : Lexer) : Except Error Lexer := do
  let l ← (l.unindentTo (-1)).dropKey
  return { l with keyAllowed := false }

/-- Opens a flow collection. -/
def openFlow (l : Lexer) (t : Token) : Except Error Lexer := do
  let l ← l.saveKey
  let outer := l.candidate :: l.outerCandidates
  return { l.emit t |>.skip 1 with
    outerCandidates := outer, candidate := none, keyAllowed := true }

/-- Closes a flow collection; one too many is left to the reader of nodes. -/
def closeFlow (l : Lexer) (t : Token) : Except Error Lexer := do
  let l ← l.dropKey
  let l := match l.outerCandidates with
    | k :: outer => { l with candidate := k, outerCandidates := outer }
    | [] => l
  return { l.emit t |>.skip 1 with keyAllowed := false }

/-- The comma between entries of a flow collection. -/
def flowEntry (l : Lexer) : Except Error Lexer := do
  let l ← l.dropKey
  return { l.emit .flowEntry |>.skip 1 with keyAllowed := true }

/-- The dash in front of an item. -/
def blockEntry (l : Lexer) : Except Error Lexer := do
  if !l.inFlow && !l.keyAllowed then throw .key
  let l ← (l.indentTo l.cursor.column none .blockSequenceStart).dropKey
  return { l.emit .blockEntry |>.skip 1 with keyAllowed := true }

/-- The question mark in front of a key. -/
def explicitKey (l : Lexer) : Except Error Lexer := do
  if !l.inFlow && !l.keyAllowed then throw .key
  let l ← (l.indentTo l.cursor.column none .blockMappingStart).dropKey
  return { l.emit .key |>.skip 1 with keyAllowed := !l.inFlow }

/-- The colon in front of a value. It makes the candidate a key. -/
def value (l : Lexer) : Except Error Lexer :=
  match l.candidate with
  | some k =>
    let l := (l.insert k.position .key).indentTo k.column (some k.position) .blockMappingStart
    .ok { l.emit .value |>.skip 1 with candidate := none, keyAllowed := false }
  | none => do
    if !l.inFlow && !l.keyAllowed then throw .key
    let l := l.indentTo l.cursor.column none .blockMappingStart
    return { l.emit .value |>.skip 1 with keyAllowed := !l.inFlow }

/-- A token that may be a key. -/
def word (l : Lexer) (read : Cursor → Except Error (Token × Cursor)) : Except Error Lexer := do
  let l ← l.saveKey
  let (t, c) ← read l.cursor
  return { l.emit t with cursor := c, keyAllowed := false }

/-- A plain scalar. A line break behind it allows a key. -/
def plainScalar (l : Lexer) : Except Error Lexer := do
  let l ← l.saveKey
  let (text, broken, c) ← Plain.read l.inFlow (l.indent + 1).toNat l.cursor
  return { l.emit (.scalar text true) with cursor := c, keyAllowed := broken }

/-- A block scalar. -/
def blockScalar (l : Lexer) (folding : Bool) : Except Error Lexer := do
  let l ← l.dropKey
  let (text, c) ← Block.read folding l.indent l.cursor
  return { l.emit (.scalar text false) with cursor := c, keyAllowed := true }

/-- The end of the text. -/
def finish (l : Lexer) : Except Error Lexer := do
  let l ← l.startLine
  return l.emit .streamEnd

/-- Whether a text begins with a plain scalar. -/
def startsPlain (flow : Bool) (s : List Char) : Bool :=
  match s with
  | [] => false
  | c :: rest =>
    (!isSpaceOrBreak c && !("-?:,[]\x7b\x7d#&*!|>'\"%@`".toList.contains c)) ||
      (c == '-' && !rest.head?.any isSpace) ||
      (!flow && (c == '?' || c == ':') && !endsWord rest)

/-- The next token of the text. -/
def next (l : Lexer) : Except Error Lexer :=
  let c := l.cursor
  let flow := l.inFlow
  match c.rest with
  | [] => l.finish
  | d :: rest =>
    if c.column == 0 && d == '%' then do
      let l ← l.startLine
      let (t, c) ← readDirective l.cursor
      return { l.emit t with cursor := c }
    else if c.atDocumentMark then do
      let l ← l.startLine
      return (l.emit (if d == '-' then .documentStart else .documentEnd)).skip 3
    else match d with
      | '[' => l.openFlow .flowSequenceStart
      | '\x7b' => l.openFlow .flowMappingStart
      | ']' => l.closeFlow .flowSequenceEnd
      | '\x7d' => l.closeFlow .flowMappingEnd
      | ',' => l.flowEntry
      | '*' => l.word fun c => (readName c).map fun (name, c) => (.reference name, c)
      | '&' => l.word fun c => (readName c).map fun (name, c) => (.anchor name, c)
      | '!' => l.word (readTag flow)
      | '\'' => l.word fun c => (Quoted.read .single c).map fun (s, c) => (.scalar s false, c)
      | '"' => l.word fun c => (Quoted.read .double c).map fun (s, c) => (.scalar s false, c)
      | _ =>
        if d == '-' && endsWord rest then l.blockEntry
        else if d == '?' && (flow || endsWord rest) then l.explicitKey
        else if d == ':' && (flow || endsWord rest) then l.value
        else if d == '|' && !flow then l.blockScalar false
        else if d == '>' && !flow then l.blockScalar true
        else if startsPlain flow c.rest then l.plainScalar
        else .error .token

/-- The tokens of the rest of the text. Every token but the last passes a
character, which bounds their number. -/
def run : Nat → Lexer → Except Error (List Token)
  | 0, _ => .error .token
  | fuel + 1, l => do
    let l ← (l.skipToToken (l.cursor.left + 1)).dropStaleKeys
    let l := l.unindentTo l.cursor.column
    let done := l.cursor.rest.isEmpty
    let l ← l.next
    if done then return l.tokens.toList else run fuel l

end Lexer

/-- The tokens of a YAML text. -/
def Token.ofText (s : String) : Except Error (List Token) :=
  let chars := s.toList
  if chars.all isAllowed then (Lexer.start chars).run (chars.length + 1)
  else .error .character

end ClientRoutes.Yaml
