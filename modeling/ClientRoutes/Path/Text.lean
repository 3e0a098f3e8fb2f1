import ClientRoutes.Path

/-
  Paths as they are written.

  Paths that a user gives are shown again as they were given, so they are joined
  and shortened as texts: slashes that repeat and parts that say nothing are
  kept.

  What is proved:
    1. `join_absolute`, `join_empty` — what joining does at its ends.
-/

namespace ClientRoutes.PathText

/-- Whether a path begins at the root. -/
def isAbsolute (path : String) : Bool := path.toList.head? == some '/'

/-- A path seen from a directory. -/
def join (directory path : String) : String :=
  if isAbsolute path || directory.isEmpty then path
  else if directory.toList.getLast? == some '/' then directory ++ path
  else directory ++ "/" ++ path

/-- Whether a part between slashes is a step of its path. `front` says that it
is the first part. -/
def isStep (front : Bool) (part : List Char) : Bool :=
  !part.isEmpty && (front || part != ['.'])

/-- The text of the first parts of a path up to its last step, given in reverse.
Without a step it is the root, or nothing. -/
def upToStep (absolute : Bool) : List (List Char) → String
  | [] => if absolute then "/" else ""
  | part :: before =>
    if isStep before.isEmpty part then
      String.ofList (['/'].intercalate (part :: before).reverse)
    else upToStep absolute before

/-- What is left of a path when its last step is taken away, and so on; the
parts are given in reverse. -/
def parentsOfParts (absolute : Bool) : List (List Char) → List String
  | [] => []
  | part :: before =>
    if isStep before.isEmpty part then
      upToStep absolute before :: parentsOfParts absolute before
    else parentsOfParts absolute before

/-- The directories above a path, the nearest first. -/
def parents (path : String) : List String :=
  parentsOfParts (isAbsolute path) (Text.split '/' path.toList).reverse

/-- The name at the end of a path. -/
def fileName? (path : String) : Option String :=
  match (Path.ofText path).steps.getLast? with
  | some (.name s) => some s
  | _ => none

/-- What follows the last dot of a name, unless the name begins with it. -/
def extensionOf? (name : String) : Option String :=
  match (Text.split '.' name.toList).reverse with
  | last :: before =>
    if (['.'].intercalate before.reverse).isEmpty then none else some (String.ofList last)
  | [] => none

/-- The extension of the file at a path. -/
def extension? (path : String) : Option String := (fileName? path).bind extensionOf?

theorem join_absolute (directory : String) {path : String} (h : isAbsolute path = true) :
    join directory path = path := by
  simp [join, h]

theorem join_empty (path : String) : join "" path = path := by
  simp [join]

end ClientRoutes.PathText
