import ClientRoutes.Description
import ClientRoutes.Settings.Layer

/-
  What can go wrong in a run.
-/

namespace ClientRoutes

/-- Why a file gives no description. -/
inductive DocumentError where
  | unreadable
  | invalid (cause : Description.Error)
  deriving DecidableEq, Repr

/-- The words of an error. -/
def DocumentError.message : DocumentError → String
  | .unreadable => "could not read file"
  | .invalid cause => cause.message

/-- Why a run gives no result. -/
inductive Failure where
  | noSource
  | remoteSource (uri : String)
  | noRoutes (path : String)
  | document (path : String) (cause : DocumentError)
  | settings (cause : SettingsError)
  deriving DecidableEq, Repr

/-- The words of a failure. -/
def Failure.message : Failure → String
  | .noSource => "No API description document given (pass a path or set `source.uri`)"
  | .remoteSource uri =>
    "Remote documents are not supported, fetch " ++ uri ++ " first and pass the local file"
  | .noRoutes path => "No routes found in " ++ path
  | .document path cause => "Invalid API description in " ++ path ++ ": " ++ cause.message
  | .settings cause => "Configuration error: " ++ cause.message

end ClientRoutes
