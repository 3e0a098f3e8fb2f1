import ClientRoutes.Text.Edit

/-
  The formats of a report.

  What is proved:
    1. `ofText?_name` — a format reads back from its name.
-/

namespace ClientRoutes

/-- A format of a report. -/
inductive ReportFormat where
  | json
  | text
  deriving DecidableEq, Repr, Inhabited

namespace ReportFormat

/-- All formats. -/
def all : List ReportFormat := [.json, .text]

/-- The name of a format. -/
def name : ReportFormat → String
  | .json => "json"
  | .text => "text"

/-- The format with a name. -/
def ofName? (s : String) : Option ReportFormat := all.find? fun f => f.name = s

/-- The format a text names in letters of any case. -/
def ofText? (s : String) : Option ReportFormat :=
  all.find? fun f => Text.sameIgnoringCase f.name s

/-- The words for a text that names no format, in small letters. -/
def unknownMessage (s : String) : String :=
  "unknown output format: " ++ String.ofList (s.toList.map Char.toLower)

theorem ofText?_name (f : ReportFormat) : ofText? f.name = some f := by cases f <;> decide

end ReportFormat

end ClientRoutes
