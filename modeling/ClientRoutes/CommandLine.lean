import ClientRoutes.CommandLine.Arguments

/-
  Command lines.

  There are three commands: `routes` reports on a document, `config show` shows
  the settings, and `config explain` explains the path of a kind of file. In front
  of the name of a command there may only be a request for help or for the
  version.
-/

namespace ClientRoutes

/-- The arguments of `routes`. -/
structure RoutesArguments where
  document : Option String
  format : Option ReportFormat
  module : Option String
  noSchema : Bool
  aliasDepth : Option Nat
  path : Option String
  deriving DecidableEq, Repr

/-- What is to be done. -/
inductive Command where
  | routes (arguments : RoutesArguments)
  | configShow (path : Option String)
  | configExplain (category : String) (path : Option String)
  deriving DecidableEq, Repr

namespace Command

/-- The directory a command is for, as it is written. -/
def path : Command → Option String
  | .routes a => a.path
  | .configShow path => path
  | .configExplain _ path => path

/-- The command for a directory. -/
def withPath (path : String) : Command → Command
  | .routes a => .routes { a with path := some path }
  | .configShow _ => .configShow (some path)
  | .configExplain category _ => .configExplain category (some path)

end Command

namespace CommandLine

open Arguments (Slot Grammar)

/-- The groups of commands. -/
inductive Group where
  | top
  | config
  deriving DecidableEq, Repr

/-- The names in a group. -/
def Group.names : Group → List String
  | .top => ["routes", "config", "help"]
  | .config => ["show", "explain", "help"]

/-- What `routes` accepts. -/
def routesGrammar : Grammar :=
  ⟨some .document, [.format, .module, .noSchema, .aliasDepth, .path]⟩

/-- What `config show` accepts. -/
def showGrammar : Grammar := ⟨none, [.path]⟩

/-- What `config explain` accepts. -/
def explainGrammar : Grammar := ⟨some .category, [.path]⟩

/-- The command `routes`. -/
def readRoutes (arguments : List String) : Except Usage Command := do
  let given ← Arguments.read routesGrammar arguments
  return .routes {
    document := given.lookup .document
    format := (given.lookup .format).bind ReportFormat.ofName?
    module := given.lookup .module
    noSchema := (given.lookup .noSchema).isSome
    aliasDepth := (given.lookup .aliasDepth).bind fun s => Text.readUInt64? s.toList
    path := given.lookup .path }

/-- The command `config show`. -/
def readShow (arguments : List String) : Except Usage Command := do
  let given ← Arguments.read showGrammar arguments
  return .configShow (given.lookup .path)

/-- The command `config explain`. -/
def readExplain (arguments : List String) : Except Usage Command := do
  let given ← Arguments.read explainGrammar arguments
  match given.lookup .category with
  | some category => return .configExplain category (given.lookup .path)
  | none => throw .missingArgument

/-- The groups and commands that help can be asked for: a name, and the names
below it. -/
def helpTopics : Group → List (String × Option Group)
  | .top => [("routes", none), ("config", some .config), ("help", none)]
  | .config => [("show", none), ("explain", none), ("help", none)]

/-- A request for help on what some names lead to. -/
def readHelp (group : Option Group) : List String → Usage
  | [] => .help
  | name :: rest =>
    match (group.map helpTopics).bind (·.lookup name) with
    | some below => readHelp below rest
    | none => .unknownCommand

/-- A word of a group that names no command of it. -/
def readOther (group : Group) (word : String) (rest : List String) : Usage :=
  if word = "--" then
    match rest with
    | [] => .missingCommand
    | next :: _ => if group.names.contains next then .unknownArgument else .unknownCommand
  else
    match Arguments.long? word with
    | some (name, attached) =>
      if name = "help" ∨ (name = "version" ∧ group = .top) then
        if attached.isSome then .unexpectedValue
        else if name = "help" then .help
        else .version
      else .unknownArgument
    | none =>
      match Arguments.short? word with
      | some c =>
        if c = 'h' then .help
        else if c = 'V' ∧ group = .top then .version
        else .unknownArgument
      | none => .unknownCommand

/-- The commands of `config`. -/
def readConfig : List String → Except Usage Command
  | [] => .error .missingCommand
  | word :: rest =>
    if word = "show" then readShow rest
    else if word = "explain" then readExplain rest
    else if word = "help" then .error (readHelp (some .config) rest)
    else .error (readOther .config word rest)

/-- The command that a command line gives. -/
def read : List String → Except Usage Command
  | [] => .error .missingCommand
  | word :: rest =>
    if word = "routes" then readRoutes rest
    else if word = "config" then readConfig rest
    else if word = "help" then .error (readHelp (some .top) rest)
    else .error (readOther .top word rest)

end CommandLine

end ClientRoutes
