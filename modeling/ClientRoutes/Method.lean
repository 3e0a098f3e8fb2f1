import ClientRoutes.Text.Edit

/-
  HTTP methods.

  What is proved:
    1. `ofText?_name` — a method reads back from its name.
    2. `mem_all` — the list of methods is complete.
-/

namespace ClientRoutes

/-- The method of a request. -/
inductive Method where
  | get
  | post
  | put
  | patch
  | delete
  | head
  | options
  deriving DecidableEq, Repr, Inhabited

namespace Method

/-- All methods. -/
def all : List Method := [.get, .post, .put, .patch, .delete, .head, .options]

/-- The name of a method in small letters. -/
def name : Method → String
  | .get => "get"
  | .post => "post"
  | .put => "put"
  | .patch => "patch"
  | .delete => "delete"
  | .head => "head"
  | .options => "options"

/-- The name of a method in capitals. -/
def capitals : Method → String
  | .get => "GET"
  | .post => "POST"
  | .put => "PUT"
  | .patch => "PATCH"
  | .delete => "DELETE"
  | .head => "HEAD"
  | .options => "OPTIONS"

/-- The method a text names in letters of any case. -/
def ofText? (s : String) : Option Method :=
  all.find? fun m => Text.sameIgnoringCase m.name s

theorem mem_all (m : Method) : m ∈ all := by cases m <;> decide

theorem ofText?_name (m : Method) : ofText? m.name = some m := by cases m <;> decide

end Method

end ClientRoutes
