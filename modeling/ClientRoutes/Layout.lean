import ClientRoutes.AliasMap
import ClientRoutes.Artifact
import ClientRoutes.Assoc

/-
  Where generated files are written, and how they import each other.

  Every kind of file has a path, relative to the working directory, in which
  `{moduleName}` stands for the name of a module.
-/

namespace ClientRoutes

/-- Paths that the settings give for some kinds of files. -/
abbrev PathOverrides := List (Artifact × String)

/-- Where a kind of file is written, and how it is imported. -/
structure Location where
  relative : String
  absolute : String
  /-- The import that leads to the file. -/
  specifier : String
  deriving DecidableEq, Repr

namespace Location

/-- What stands for the name of a module. -/
def placeholder : String := "\x7bmoduleName\x7d"

/-- A text with the name of a module put in. -/
def substitute (module s : String) : String := Text.replaceAll placeholder module s

/-- The location for a module. -/
def forModule (l : Location) (module : String) : Location :=
  ⟨substitute module l.relative, substitute module l.absolute, substitute module l.specifier⟩

/-- The location of a path. -/
def ofPath (directory : String) (aliases : AliasMap) (path : String) : Location where
  relative := path
  absolute := ((Path.ofText directory).join (Path.ofText path)).normalize.text
  specifier := aliases.derive path

end Location

/-- Where all kinds of files are written. -/
structure Layout where
  directory : String
  overrides : PathOverrides
  aliases : AliasMap
  /-- How many steps up an import may take before it keeps its alias. -/
  maxDepth : Nat
  deriving Repr

namespace Layout

/-- How many steps up an import may take by default. -/
def defaultDepth : Nat := 2

/-- The path of a kind of file. -/
def pathOf (overrides : PathOverrides) (a : Artifact) : String :=
  (overrides.lookup a).getD a.defaultPath

/-- The location of a kind of file. -/
def location (l : Layout) (a : Artifact) : Location :=
  .ofPath l.directory l.aliases (pathOf l.overrides a)

/-- How a file of one kind imports one of another kind, both of one module. -/
def importPath (l : Layout) (source target : Artifact) (module : String) : String :=
  let source := (l.location source).forModule module
  let target := (l.location target).forModule module
  l.aliases.resolve source.relative target.specifier l.maxDepth

/-- One row of the table of paths. -/
def row (category path specifier : String) : String :=
  "  " ++ Text.padRight 15 category ++ " " ++ Text.padRight 48 path ++ " " ++ specifier ++ "\n"

/-- The table of paths. -/
def table (l : Layout) : String :=
  "Output paths:\n" ++ row "category" "path" "alias" ++
    String.join (Artifact.all.map fun a =>
      row a.key (l.location a).relative (l.location a).specifier)

end Layout

end ClientRoutes
