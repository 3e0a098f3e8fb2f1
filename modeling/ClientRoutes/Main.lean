import ClientRoutes.Run

/-
  The program: it looks at the files and the variables that a command needs, runs
  the command on them, and prints the result.
-/

namespace ClientRoutes

/-- What is at a path, if there is anything. -/
def lookAt? (path : String) : IO (Option FileTree.Node) := do
  try
    let real ← IO.FS.realPath path
    if ← real.isDir then return some .directory
    else return some (.file (String.fromUTF8? (← IO.FS.readBinFile real)))
  catch _ => return none

/-- The tree with what is at some paths and on the way to them. -/
def lookAtAll (tree : FileTree) (paths : List String) : IO FileTree := do
  let mut tree := tree
  for path in paths.flatMap fun p => p :: PathText.parents p do
    if let some node ← lookAt? path then
      tree := tree.add path node
  return tree

/-- The variables that a command looks at. -/
def readEnvironment : IO Environment := do
  let mut env : Environment := .empty
  for name in Run.variableNames do
    if let some value ← IO.getEnv name then
      env := env.insert name value
  return env

/-- The command for its directory without links on the way. -/
def atRealPath (command : Command) : IO Command := do
  try
    let real ← IO.FS.realPath (command.path.getD ".")
    return command.withPath real.toString
  catch _ => return command

/-- The files that a command looks at. -/
def readFiles (env : Environment) (command : Command) : IO FileTree := do
  let current := (← IO.currentDir).toString
  let place := (({ nodes := [], current := [] } : FileTree).add current .directory).nodes
  let tree : FileTree := ⟨place, (place.map Prod.fst).headD []⟩
  let directory := command.path.getD "."
  let tree ← lookAtAll tree (directory :: Run.settingsPaths env directory)
  lookAtAll tree (Run.documentPath? tree env command).toList

/-- Runs a command. -/
def runCommand (command : Command) : IO UInt32 := do
  let started ← IO.monoMsNow
  let env ← readEnvironment
  let command ← atRealPath command
  let tree ← readFiles env command
  let elapsed := (← IO.monoMsNow) - started
  match Run.command tree env elapsed command with
  | .error failure =>
    IO.eprintln ("Error: " ++ failure.message)
    return 1
  | .ok printed =>
    for warning in printed.warnings do
      IO.eprintln ("WARN " ++ warning.message)
    IO.print printed.text
    return 0

end ClientRoutes

/-- Runs a command line. -/
def main (arguments : List String) : IO UInt32 :=
  match ClientRoutes.CommandLine.read arguments with
  | .ok command => ClientRoutes.runCommand command
  | .error usage =>
    if usage.isRequest then do
      IO.print usage.message
      return 0
    else do
      IO.eprint usage.message
      return 2
