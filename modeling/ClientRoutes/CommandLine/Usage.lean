/-
  Why a command line is not run.
-/

namespace ClientRoutes

/-- Why a command line is not run: something is wrong with it, or it asks for
help. -/
inductive Usage where
  | unknownArgument
  | invalidValue
  | invalidNumber
  | missingArgument
  | unknownCommand
  | help
  | version
  | missingCommand
  | repeatedArgument
  | unexpectedValue
  deriving DecidableEq, Repr

namespace Usage

/-- Whether the command line asks for something that is no mistake. -/
def isRequest (u : Usage) : Bool := u == .help || u == .version

/-- What the commands are. -/
def overview : String :=
  "Usage:\n" ++
    "  swagger-autogen routes [DOCUMENT] [--format json|text] [--module NAME] [--no-schema]\n" ++
    "      [--alias-depth COUNT] [--path DIRECTORY]\n" ++
    "  swagger-autogen config show [--path DIRECTORY]\n" ++
    "  swagger-autogen config explain CATEGORY [--path DIRECTORY]\n"

/-- What is said instead of running the command line. -/
def message : Usage → String
  | .unknownArgument => "unexpected argument\n" ++ overview
  | .invalidValue => "invalid value\n" ++ overview
  | .invalidNumber => "invalid number\n" ++ overview
  | .missingArgument => "missing argument\n" ++ overview
  | .unknownCommand => "unknown command\n" ++ overview
  | .help => overview
  | .version => "swagger-autogen\n"
  | .missingCommand => overview
  | .repeatedArgument => "argument given more than once\n" ++ overview
  | .unexpectedValue => "unexpected value\n" ++ overview

end Usage

end ClientRoutes
