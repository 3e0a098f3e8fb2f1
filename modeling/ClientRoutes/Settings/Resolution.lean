import ClientRoutes.FileTree
import ClientRoutes.Settings.Layer

/-
  Finding and combining the settings of a directory.

  The layers are, from the bottom: the user's settings file, the settings file
  of the project, the environment, and the command line. The file of the project
  is the nearest one in the directory or above it.

  What is proved:
    1. `combine_append` — layers may be laid over one after the other.
-/

namespace ClientRoutes

/-- Settings, where they come from, and the files that were read. -/
structure Resolution where
  settings : Settings
  provenance : Provenance
  files : List String
  deriving Repr

namespace Resolution

/-- The name of a project's settings file. -/
def projectFileName : String := "swagger-autogen.toml"

/-- The directory for the settings of programs: from `XDG_CONFIG_HOME` if that is
absolute, and else in the home directory. -/
def userDirectory? (env : Environment) : Option String :=
  (env.get? "XDG_CONFIG_HOME").filter PathText.isAbsolute <|>
    ((env.get? "HOME").filter (!·.isEmpty)).map fun home => PathText.join home ".config"

/-- The path of the user's settings file. -/
def userPath? (env : Environment) : Option String :=
  (userDirectory? env).map fun directory =>
    PathText.join (PathText.join directory "swagger-autogen") "config.toml"

/-- The paths where the settings file of a project may be, the nearest first. -/
def projectPaths (directory : String) : List String :=
  (directory :: PathText.parents directory).map fun d => PathText.join d projectFileName

/-- The settings files that are there. -/
def foundFiles (tree : FileTree) (env : Environment) (directory : String) :
    List (Scope × String) :=
  ((userPath? env).filter tree.contains).toList.map (Scope.user, ·) ++
    ((projectPaths directory).find? tree.contains).toList.map (Scope.project, ·)

/-- The layer of a settings file. -/
def fileLayer (tree : FileTree) (file : Scope × String) : Except SettingsError Layer :=
  match tree.read? file.2 with
  | none => .error (.unreadable file.1 file.2)
  | some text =>
    match FileSettings.ofToml? text with
    | none => .error (.malformed file.1)
    | some settings => Layer.ofFile (file.1.origin file.2) settings.modernize

/-- Settings with layers laid over them, the lowest one first. -/
def combine (layers : List Layer) (s : Settings) : Settings :=
  layers.foldl (fun s l => l.laidOver s) s

/-- Origins with those of layers laid over them. -/
def combineOrigins (layers : List Layer) (p : Provenance) : Provenance :=
  layers.foldl (fun p l => l.originsOver p) p

/-- The layers over the built-in settings, the lowest one first. -/
def layers (tree : FileTree) (env : Environment) (directory : String) (o : Overrides) :
    Except SettingsError (List Layer) := do
  let files ← (foundFiles tree env directory).mapM (fileLayer tree)
  return files ++ [Layer.ofEnvironment env, Layer.ofOverrides o]

/-- The settings of a directory. -/
def resolve (tree : FileTree) (env : Environment) (directory : String) (o : Overrides) :
    Except SettingsError Resolution := do
  let layers ← layers tree env directory o
  return {
    settings := combine layers (Settings.builtIn directory)
    provenance := combineOrigins layers Provenance.builtIn
    files := (foundFiles tree env directory).map Prod.snd }

theorem combine_append (lower upper : List Layer) (s : Settings) :
    combine (lower ++ upper) s = combine upper (combine lower s) := by
  simp [combine]

end Resolution

end ClientRoutes
