import ClientRoutes.Yaml.Cursor
import ClientRoutes.Yaml.Tag

/-
  The tokens of a YAML text.

  Indentation becomes explicit: a block collection is enclosed in a start token
  and `blockEnd`, and every key of a mapping is announced by `key`, also where
  the text only shows the colon behind it.
-/

namespace ClientRoutes.Yaml

/-- A token of a YAML text. -/
inductive Token where
  | versionDirective (major minor : Nat)
  | tagDirective (handle : String) (target : Address)
  | documentStart
  | documentEnd
  | streamEnd
  | blockSequenceStart
  | blockMappingStart
  | blockEnd
  | flowSequenceStart
  | flowSequenceEnd
  | flowMappingStart
  | flowMappingEnd
  | blockEntry
  | flowEntry
  | key
  | value
  | reference (name : String)
  | anchor (name : String)
  | tag (handle : String) (suffix : Address)
  | scalar (text : String) (plain : Bool)
  deriving DecidableEq, Repr, Inhabited

end ClientRoutes.Yaml
