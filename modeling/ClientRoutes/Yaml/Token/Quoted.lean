import ClientRoutes.Yaml.Token.Folding

/-
  Scalars in quotes.

  In single quotes a quote is written twice and nothing else is special. In
  double quotes a backslash begins an escape, and a backslash at the end of a
  line joins it to the next one.
-/

namespace ClientRoutes.Yaml.Quoted

/-- The two kinds of quotes. -/
inductive Style where
  | single
  | double
  deriving DecidableEq, Repr

/-- The quote itself. -/
def Style.mark : Style → Char
  | .single => '\''
  | .double => '"'

/-- The character a one-letter escape stands for. -/
def shortEscape? : Char → Option Char
  | '0' => some '\x00'
  | 'a' => some '\x07'
  | 'b' => some '\x08'
  | 't' => some '\t'
  | '\t' => some '\t'
  | 'n' => some '\n'
  | 'v' => some '\x0b'
  | 'f' => some '\x0c'
  | 'r' => some '\r'
  | 'e' => some '\x1b'
  | ' ' => some ' '
  | '"' => some '"'
  | '/' => some '/'
  | '\\' => some '\\'
  | 'N' => some '\x85'
  | '_' => some '\xa0'
  | 'L' => some '\u2028'
  | 'P' => some '\u2029'
  | _ => none

/-- The number of hexadecimal digits behind an escape letter. -/
def hexLength? : Char → Option Nat
  | 'x' => some 2
  | 'u' => some 4
  | 'U' => some 8
  | _ => none

/-- The character with a code point, if it is one. -/
def charOfCode? (n : Nat) : Option Char :=
  if h : n.isValidChar then some ⟨n.toUInt32, by
    have hn : n < 2 ^ 32 := by unfold Nat.isValidChar at h; omega
    unfold UInt32.isValidChar
    rw [Nat.toUInt32_eq, UInt32.toNat_ofNat', Nat.mod_eq_of_lt hn]
    exact h⟩
  else none

/-- An escape behind its backslash: the character, and how many characters of
the text it takes. -/
def escape? (s : List Char) : Option (Char × Nat) :=
  match s with
  | [] => none
  | c :: rest =>
    match hexLength? c with
    | some n =>
      if (rest.take n).length < n then none
      else do
        let code ← Text.readNat? 16 (rest.take n)
        let d ← charOfCode? code
        return (d, n + 1)
    | none => (shortEscape? c).map (·, 1)

/-- Characters of a quoted scalar up to the next gap or quote: their meaning in
reverse, on top of `done`, whether they end in an escaped line break, and the
cursor behind them. -/
def word (style : Style) : Nat → List Char → Cursor → Except Error (List Char × Bool × Cursor)
  | 0, done, c => .ok (done, false, c)
  | fuel + 1, done, c =>
    match style, c.rest with
    | _, [] => .ok (done, false, c)
    | .single, '\'' :: '\'' :: _ => word style fuel ('\'' :: done) (c.skip 2)
    | .double, '\\' :: rest =>
      if rest.head?.any isBreak then .ok (done, true, (c.skip 1).skipBreak)
      else match escape? rest with
        | some (d, n) => word style fuel (d :: done) (c.skip (n + 1))
        | none => .error .token
    | _, d :: _ =>
      if isSpaceOrBreak d || d == style.mark then .ok (done, false, c)
      else word style fuel (d :: done) (c.skip 1)

/-- The text of a quoted scalar behind its opening quote, in reverse and on top
of `done`, and the cursor behind its closing quote. -/
def scan (style : Style) : Nat → List Char → Cursor → Except Error (List Char × Cursor)
  | 0, _, _ => .error .token
  | fuel + 1, done, c =>
    if c.atDocumentMark || c.rest.isEmpty then .error .token
    else do
      let (done, joined, c) ← word style c.left done c
      if c.rest.head? == some style.mark then .ok (done, c.skip 1)
      else
        let gap := if joined then Gap.afterEscapedBreak else Gap.none
        let (gap, c) ← Gap.extend 0 c.left gap c
        scan style fuel (gap.folded.reverseAux done) c

/-- A quoted scalar, from its opening quote on. -/
def read (style : Style) (c : Cursor) : Except Error (String × Cursor) := do
  let (text, c) ← scan style (c.left + 1) [] (c.skip 1)
  return (String.ofList text.reverse, c)

end ClientRoutes.Yaml.Quoted
