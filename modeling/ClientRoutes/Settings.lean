import ClientRoutes.Layout
import ClientRoutes.ReportFormat

/-
  The settings of a run.
-/

namespace ClientRoutes

/-- The settings of a run. -/
structure Settings where
  /-- The document to read. -/
  uri : Option String
  username : Option String
  password : Option String
  /-- Whether validators are part of the report. -/
  createSchema : Bool
  projectTemplate : Option String
  format : ReportFormat
  /-- The directory from which relative paths are seen. -/
  directory : String
  aliases : AliasMap
  aliasDepth : Nat
  paths : PathOverrides
  deriving Repr

namespace Settings

/-- The settings of a directory when nothing is said about them. -/
def builtIn (directory : String) : Settings where
  uri := none
  username := none
  password := none
  createSchema := true
  projectTemplate := none
  format := .json
  directory := directory
  aliases := .standard directory
  aliasDepth := Layout.defaultDepth
  paths := []

/-- Where the settings put the generated files. -/
def layout (s : Settings) : Layout := ⟨s.directory, s.paths, s.aliases, s.aliasDepth⟩

end Settings

end ClientRoutes
