/-
  The tags of nodes.

  A tag is an address. Escapes in it stand for bytes, and not all bytes are a
  text, so an address is a list of bytes; it ends in front of the first zero.
  What it says about its node is one of few things: a type of scalars that every
  document knows, a name of its own behind an exclamation mark, or nothing.

  What is proved:
    1. `endedAtZero_append` — an address goes on behind a part without zeros.
-/

namespace ClientRoutes.Yaml

/-- The bytes of an address or of a part of it. -/
abbrev Address := List UInt8

namespace Address

/-- The address that a text spells without escapes. -/
def ofText (s : String) : Address := s.toList.flatMap String.utf8EncodeChar

/-- The text that an address spells, if it is one. -/
def text? (a : Address) : Option String := String.fromUTF8? ⟨a.toArray⟩

/-- An address up to its first zero byte. -/
def endedAtZero (a : Address) : Address := a.takeWhile (· != 0)

theorem endedAtZero_append {a : Address} (b : Address) (h : ∀ x ∈ a, x ≠ 0) :
    endedAtZero (a ++ b) = a ++ endedAtZero b := by
  unfold endedAtZero
  rw [List.takeWhile_append_of_pos]
  intro x hx
  simpa using h x hx

end Address

/-- What a tag says about its node. -/
inductive Tag where
  | bool
  | int
  | float
  | null
  /-- A name of the document's own. -/
  | named (name : String)
  /-- A name of the document's own that is no text. -/
  | nameless
  /-- Any other address. -/
  | foreign
  deriving DecidableEq, Repr, Inhabited

namespace Tag

/-- A text without an exclamation mark in front, unless it is nothing else. -/
def unmarked : List Char → List Char
  | '!' :: c :: rest => c :: rest
  | s => s

/-- What the text of an address says. Two exclamation marks in front of a name
are not part of it. -/
def ofText (s : String) : Tag :=
  match s with
  | "tag:yaml.org,2002:bool" => .bool
  | "tag:yaml.org,2002:int" => .int
  | "tag:yaml.org,2002:float" => .float
  | "tag:yaml.org,2002:null" => .null
  | _ =>
    if s.toList.head? == some '!' then .named (String.ofList (unmarked (unmarked s.toList)))
    else .foreign

/-- What an address says. -/
def ofAddress (a : Address) : Tag :=
  match a.text? with
  | some s => ofText s
  | none => if a.head? == some 0x21 then .nameless else .foreign

end Tag

end ClientRoutes.Yaml
