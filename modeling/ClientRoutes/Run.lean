import ClientRoutes.CommandLine
import ClientRoutes.Json.Printer
import ClientRoutes.Report.Record
import ClientRoutes.Report.Text
import ClientRoutes.Settings.Show

/-
  Running a command on the files and the environment that it sees.
-/

namespace ClientRoutes

/-- What a command prints, and the warnings about it. -/
structure Printed where
  text : String
  warnings : List Warning
  deriving DecidableEq, Repr

namespace Run

/-- The settings that the arguments of `routes` give. -/
def overrides (a : RoutesArguments) : Overrides where
  uri := a.document
  format := a.format
  createSchema := if a.noSchema then some false else none
  aliasDepth := a.aliasDepth

/-- The directory a command is run for. -/
def directory (tree : FileTree) (path : Option String) : Except Failure String :=
  let path := path.getD "."
  match tree.canonical? path with
  | some directory => .ok directory
  | none => .error (.settings (.missingDirectory path))

/-- The settings of a directory. -/
def resolve (tree : FileTree) (env : Environment) (directory : String) (o : Overrides) :
    Except Failure Resolution :=
  (Resolution.resolve tree env directory o).mapError .settings

/-- A report in a format. -/
def print (format : ReportFormat) (report : Report) (elapsed : Nat) : String :=
  match format with
  | .json => (report.record elapsed).pretty ++ "\n"
  | .text => report.text

/-- Runs `routes`. -/
def routes (tree : FileTree) (env : Environment) (elapsed : Nat) (a : RoutesArguments) :
    Except Failure Printed := do
  let r ← resolve tree env (← directory tree a.path) (overrides a)
  let (report, warnings) ← Report.build tree r.settings a.module
  return ⟨print r.settings.format report elapsed, Layer.environmentWarnings env ++ warnings⟩

/-- Runs a command that prints something about the settings. -/
def config (tree : FileTree) (env : Environment) (path : Option String)
    (text : Resolution → String) : Except Failure Printed := do
  let r ← resolve tree env (← directory tree path) .none
  return ⟨text r, Layer.environmentWarnings env⟩

/-- Runs a command. The elapsed time is what the report says about it. -/
def command (tree : FileTree) (env : Environment) (elapsed : Nat) :
    Command → Except Failure Printed
  | .routes a => routes tree env elapsed a
  | .configShow path => config tree env path Resolution.overview
  | .configExplain category path => config tree env path (·.explain category)

/-! ## What a command looks at -/

/-- The variables that a command looks at. -/
def variableNames : List String :=
  ["HOME", "XDG_CONFIG_HOME"] ++
    [Setting.uri, .format, .createSchema, .aliasDepth].map Layer.variableName

/-- The paths where the settings of a directory may be. -/
def settingsPaths (env : Environment) (directory : String) : List String :=
  (Resolution.userPath? env).toList ++ Resolution.projectPaths directory

/-- The path of the document that a command reads, given the files with its
settings. -/
def documentPath? (tree : FileTree) (env : Environment) : Command → Option String
  | .routes a => Except.toOption do
    let r ← resolve tree env (← directory tree a.path) (overrides a)
    Report.documentPath r.settings
  | _ => none

end Run

end ClientRoutes
