import ClientRoutes.Number

/-
  JSON values.

  A record keeps its fields in order and has each name once.
-/

namespace ClientRoutes

/-- A JSON value. -/
inductive Json where
  | null
  | bool (value : Bool)
  | number (value : Number)
  | text (value : String)
  | list (items : List Json)
  | record (fields : List (String × Json))
  deriving Repr, Inhabited

namespace Json

/-- The value of a field of a record. -/
def field? (j : Json) (name : String) : Option Json :=
  match j with
  | .record fields => fields.lookup name
  | _ => none

/-- A text, or null for none. -/
def ofText? : Option String → Json
  | some s => .text s
  | none => .null

/-- A list of texts. -/
def ofTexts (xs : List String) : Json := .list (xs.map .text)

/-- A count. -/
def ofNat (n : Nat) : Json := .number (.integer n)

end Json

end ClientRoutes
