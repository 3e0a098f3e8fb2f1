import ClientRoutes.Toml.Literal

/-
  Reading TOML documents.

  A document is a list of statements, one on each line: headers, which open a
  table, and keys with their values, which go into the table that was opened
  last. Every reader takes the characters that are left and gives what it read
  and the characters behind it.
-/

namespace ClientRoutes.Toml

open ClientRoutes.Text

/-- Fewer containers than this may be open at once, and a dotted key has fewer
parts than this. -/
def nestingLimit : Nat := 80

/-- The text behind blanks. -/
def skipSpaces (s : List Char) : List Char := s.dropWhile isSpace

/-- The text behind blanks, line ends and comments. A comment ends with its
line. -/
def skipTrivia (inComment : Bool) : List Char → Option (List Char)
  | '\n' :: rest => skipTrivia false rest
  | '\r' :: '\n' :: rest => skipTrivia false rest
  | c :: rest =>
    if inComment then (if isVisible c then skipTrivia true rest else none)
    else if c == '#' then skipTrivia true rest
    else if isSpace c then skipTrivia false rest
    else some (c :: rest)
  | [] => if inComment then none else some []

/-- The text behind the end of a line, which may have a comment on it. -/
def lineEnd? (s : List Char) : Option (List Char) :=
  let afterComment := match skipSpaces s with
    | '#' :: rest => rest.dropWhile isVisible
    | rest => rest
  match afterComment with
  | [] => some []
  | _ => newLine? afterComment

/-! ## Keys -/

/-- Whether a character may be part of a key without quotes. -/
def isBareKeyChar (c : Char) : Bool := c.isAlphanum || c == '_' || c == '-'

/-- One part of a key. -/
def keyPart? (s : List Char) : Option (String × List Char) :=
  match s.span isBareKeyChar with
  | ([], _) => quotedText? s
  | (part, rest) => some (String.ofList part, rest)

/-- The parts of a key between its dots, at most so many. -/
def keyParts? : Nat → List Char → Option (List String × List Char)
  | 0, _ => none
  | count + 1, s => do
    let (part, rest) ← keyPart? (skipSpaces s)
    match skipSpaces rest with
    | '.' :: rest => do
      let (parts, rest) ← keyParts? count rest
      return (part :: parts, rest)
    | rest => return ([part], rest)

/-- A key, with the blanks around it. -/
def key? (s : List Char) : Option (List String × List Char) := keyParts? (nestingLimit - 1) s

/-! ## Values -/

mutual

/-- A value inside `depth` open containers. -/
def value? : Nat → Nat → List Char → Option (Item × List Char)
  | 0, _, _ => none
  | fuel + 1, depth, s =>
    match s with
    | '[' :: rest =>
      if depth + 1 < nestingLimit then
        (items? fuel (depth + 1) rest).map fun (items, rest) => (.list items, rest)
      else none
    | '\x7b' :: rest =>
      if depth + 1 < nestingLimit then
        match skipSpaces rest with
        | '\x7d' :: rest => some (.table .closed [], rest)
        | _ =>
          (fields? fuel (depth + 1) [] rest).map fun (entries, rest) =>
            (.table .closed entries, rest)
      else none
    | 't' :: 'r' :: 'u' :: 'e' :: rest => some (.bool true, rest)
    | 'f' :: 'a' :: 'l' :: 's' :: 'e' :: rest => some (.bool false, rest)
    | _ =>
      ((text? s).map fun (t, rest) => (.text t, rest)) <|> datetime? s <|> number? s

/-- The items of a list behind its bracket; a comma may stand behind the last
one. -/
def items? : Nat → Nat → List Char → Option (List Item × List Char)
  | 0, _, _ => none
  | fuel + 1, depth, s => do
    let s ← skipTrivia false s
    match s with
    | ']' :: rest => return ([], rest)
    | _ =>
      let (item, rest) ← value? fuel depth s
      match ← skipTrivia false rest with
      | ',' :: rest => do
        let (items, rest) ← items? fuel depth rest
        return (item :: items, rest)
      | ']' :: rest => return ([item], rest)
      | _ => none

/-- The entries of a table in braces, behind some that are already read. -/
def fields? : Nat → Nat → Entries → List Char → Option (Entries × List Char)
  | 0, _, _, _ => none
  | fuel + 1, depth, entries, s => do
    let (key, rest) ← key? s
    let rest ← expect? '=' rest
    let (item, rest) ← value? fuel depth (skipSpaces rest)
    let entries ← entries.assign false true key item
    match skipSpaces rest with
    | ',' :: rest => fields? fuel depth entries rest
    | '\x7d' :: rest => return (entries, rest)
    | _ => none

end

/-! ## Documents -/

/-- The entries of a document while it is read. -/
structure Progress where
  root : Entries
  /-- The key of the table that was opened last. -/
  opened : List String

/-- The header of a table, behind its first bracket. -/
def header? (p : Progress) (s : List Char) : Option (Progress × List Char) := do
  let (key, rest) ← key? s
  let rest ← lineEnd? (← expect? ']' rest)
  let root ← p.root.openTable key
  return (⟨root, key⟩, rest)

/-- The header of one more table of a list, behind its first two brackets. -/
def listHeader? (p : Progress) (s : List Char) : Option (Progress × List Char) := do
  let (key, rest) ← key? s
  let rest ← lineEnd? (← expect? ']' (← expect? ']' rest))
  let root ← p.root.openTables key
  return (⟨root, key⟩, rest)

/-- A key with its value. -/
def assignment? (p : Progress) (s : List Char) : Option (Progress × List Char) := do
  let (key, rest) ← key? s
  let rest ← expect? '=' rest
  let (item, rest) ← value? (2 * rest.length + 2) 0 (skipSpaces rest)
  let rest ← lineEnd? rest
  let root ← p.root.changeOpened (fun entries => entries.assign false true key item) p.opened
  return (⟨root, p.opened⟩, rest)

/-- One line of a document, or several if its value goes on. -/
def statement? (p : Progress) (s : List Char) : Option (Progress × List Char) :=
  match s with
  | '[' :: '[' :: rest => listHeader? p rest
  | '[' :: rest => header? p rest
  | '#' :: _ => (lineEnd? s).map (p, ·)
  | '\n' :: rest => some (p, rest)
  | '\r' :: _ => (newLine? s).map (p, ·)
  | _ => assignment? p s

/-- The statements of a document. -/
def statements? : Nat → Progress → List Char → Option Entries
  | 0, _, _ => none
  | fuel + 1, p, s =>
    match skipSpaces s with
    | [] => some p.root
    | s => do
      let (p, rest) ← statement? p s
      statements? fuel p rest

/-- Reads a document; a byte order mark may stand at its front. -/
def read? (text : String) : Option Entries :=
  let s := match text.toList with
    | '\ufeff' :: rest => rest
    | s => s
  statements? (s.length + 1) ⟨[], []⟩ s

end ClientRoutes.Toml
