import ClientRoutes.Yaml.Token

/-
  Names in a YAML text: anchors, aliases, tags and directives.

  A tag is a handle and a suffix. The handle says which address the suffix is
  appended to; an empty handle means that the suffix is the whole tag.
-/

namespace ClientRoutes.Yaml

/-! ## Anchors and aliases -/

/-- Whether a name may end in front of a text. -/
def endsName (s : List Char) : Bool :=
  s.head?.all fun c => isSpaceOrBreak c || "?:,]\x7d%@`".toList.contains c

/-- The name of an anchor or alias, from its sign on. -/
def readName (c : Cursor) : Except Error (String × Cursor) :=
  let (name, c) := (c.skip 1).spanLine isNameChar
  if name.isEmpty || !endsName c.rest then .error .token else .ok (String.ofList name, c)

/-! ## Tags -/

/-- Whether a character may stand in a tag; commas and square brackets only
between angle brackets or in a directive. -/
def isTagChar (wide : Bool) (c : Char) : Bool :=
  isNameChar c || ";/?:@&=+$.!~*'()".toList.contains c ||
    (wide && (c == ',' || c == '[' || c == ']'))

/-- The number of bytes that follow the first byte of a character. -/
def bytesBehind? (first : UInt8) : Option Nat :=
  if first < 0x80 then some 0
  else if 0xC0 ≤ first && first < 0xE0 then some 1
  else if 0xE0 ≤ first && first < 0xF0 then some 2
  else if 0xF0 ≤ first && first < 0xF8 then some 3
  else none

/-- The bytes that `n` escapes of the form `%41` at the front of a text write,
and what follows them. -/
def readEscapes : Nat → List Char → Option (Address × List Char)
  | 0, s => some ([], s)
  | n + 1, '%' :: a :: b :: rest => do
    let byte ← Text.readNat? 16 [a, b]
    let (bytes, rest) ← readEscapes n rest
    return (byte.toUInt8 :: bytes, rest)
  | _ + 1, _ => none

/-- The bytes of a character written as escapes. They have the shape of a
character, but need not be one. -/
def escapedChar? (s : List Char) : Option Address := do
  let (first, rest) ← readEscapes 1 s
  let n ← bytesBehind? (first.headD 0)
  let (others, _) ← readEscapes n rest
  if others.all fun b => 0x80 ≤ b && b < 0xC0 then some (first ++ others) else none

/-- The bytes of an address at the cursor, in reverse and on top of `done`. -/
def addressBytes (wide : Bool) : Nat → Address → Cursor → Except Error (Address × Cursor)
  | 0, done, c => .ok (done, c)
  | fuel + 1, done, c =>
    match c.rest with
    | [] => .ok (done, c)
    | '%' :: _ =>
      match escapedChar? c.rest with
      | some bytes =>
        addressBytes wide fuel (bytes.reverseAux done) (c.skip (3 * bytes.length))
      | none => .error .token
    | d :: _ =>
      if isTagChar wide d then
        addressBytes wide fuel ((String.utf8EncodeChar d).reverseAux done) (c.skip 1)
      else .ok (done, c)

/-- The address at the cursor behind what is known of it. `required` says that
there has to be at least one more character. -/
def readAddress (wide required : Bool) (known : List Char) (c : Cursor) :
    Except Error (Address × Cursor) := do
  let start := c.left
  let (bytes, c) ← addressBytes wide c.left [] c
  if required && c.left == start then .error .token
  else return ((Address.ofText (String.ofList known) ++ bytes.reverse).endedAtZero, c)

/-- A handle: an exclamation mark, a name, and another exclamation mark if there
is one. -/
def readHandle (c : Cursor) : Except Error (List Char × Cursor) :=
  match c.rest with
  | '!' :: _ =>
    let (name, c) := (c.skip 1).spanLine isNameChar
    match c.rest with
    | '!' :: _ => .ok ('!' :: name ++ ['!'], c.skip 1)
    | _ => .ok ('!' :: name, c)
  | _ => .error .token

/-- A tag, from its sign on, without a look at what follows it. -/
def readTagParts (c : Cursor) : Except Error (Token × Cursor) :=
  match c.rest with
  | '!' :: '<' :: _ => do
    let (address, c) ← readAddress true true [] (c.skip 2)
    match c.rest with
    | '>' :: _ => return (.tag "" address, c.skip 1)
    | _ => .error .token
  | _ => do
    let (handle, c) ← readHandle c
    if handle.length > 1 && handle.getLast? == some '!' then
      let (suffix, c) ← readAddress false true [] c
      return (.tag (String.ofList handle) suffix, c)
    else
      let (suffix, c) ← readAddress false false (handle.drop 1) c
      return (if suffix.isEmpty then .tag "" (.ofText "!") else .tag "!" suffix, c)

/-- A tag; a blank has to follow it, or inside a flow collection a comma. -/
def readTag (flow : Bool) (c : Cursor) : Except Error (Token × Cursor) := do
  let (tag, c) ← readTagParts c
  if endsWord c.rest || (flow && c.rest.head? == some ',') then return (tag, c)
  else .error .token

/-! ## Directives -/

/-- A number of at most nine digits. -/
def readVersionNumber (c : Cursor) : Except Error (Nat × Cursor) :=
  let (digits, c) := c.spanLine Text.isDecimal
  if digits.isEmpty || digits.length > 9 then .error .token
  else .ok ((Text.readNat? 10 digits).getD 0, c)

/-- The rest of a version directive. -/
def readVersion (c : Cursor) : Except Error (Token × Cursor) := do
  let (major, c) ← readVersionNumber c.skipSpaces
  match c.rest with
  | '.' :: _ => do
    let (minor, c) ← readVersionNumber (c.skip 1)
    return (.versionDirective major minor, c)
  | _ => .error .token

/-- The rest of a tag directive. -/
def readTagDirective (c : Cursor) : Except Error (Token × Cursor) := do
  let (handle, c) ← readHandle c.skipSpaces
  if handle.length > 1 && handle.getLast? != some '!' then .error .token
  else if !c.rest.head?.any isSpace then .error .token
  else
    let (target, c) ← readAddress true true [] c.skipSpaces
    if endsWord c.rest then return (.tagDirective (String.ofList handle) target, c)
    else .error .token

/-- A directive, from its sign on, with the end of its line. -/
def readDirective (c : Cursor) : Except Error (Token × Cursor) := do
  let (name, c) := (c.skip 1).spanLine isNameChar
  if !endsWord c.rest then .error .token
  else
    let (token, c) ← match String.ofList name with
      | "YAML" => readVersion c
      | "TAG" => readTagDirective c
      | _ => .error .token
    let c := c.skipSpaces.skipComment
    if endsLine c.rest then return (token, c.skipBreak) else .error .token

end ClientRoutes.Yaml
