import ClientRoutes.Yaml.Token

/-
  The nodes of a YAML document.

  A node is an alias, a scalar, a sequence or a mapping; all but aliases may
  carry an anchor and a tag.
-/

namespace ClientRoutes.Yaml

/-- What may stand in front of a node. -/
structure Properties where
  anchor : Option String
  tag : Option Tag
  deriving DecidableEq, Repr, Inhabited

/-- A node of a YAML document. -/
inductive Node where
  | reference (name : String)
  | scalar (properties : Properties) (text : String) (plain : Bool)
  | sequence (properties : Properties) (items : List Node)
  | mapping (properties : Properties) (entries : List (Node × Node))
  deriving Repr, Inhabited

namespace Node

/-- No anchor and no tag. -/
def bare : Properties := ⟨none, none⟩

/-- The node that stands where the text has none. -/
def empty : Node := .scalar bare "" true

/-- The handles every document knows. -/
def standardHandles : List (String × Address) :=
  [("!", .ofText "!"), ("!!", .ofText "tag:yaml.org,2002:")]

end Node

end ClientRoutes.Yaml
