import ClientRoutes.Path.Text

/-
  Files and directories.

  A place is the list of names that lead to it from the root. Whatever lies above
  a place of the tree is a directory. A path is followed part by part, and every
  part but the last has to lead to a directory; so has the last one if a slash or
  a `.` follows it. A file is looked up only by a path that is not too long, but
  the shortest path to a place is found from one of any length.

  What is proved:
    1. `walk?_append` — a path may be followed in two goes.
    2. `contains_of_read?` — a file that can be read is there.
    3. `read?_of_long` — nothing is read at a path that is too long.
-/

namespace ClientRoutes

/-- What can be at a place: a directory, or a file with its text. A file that is
no text has none. -/
inductive FileTree.Node where
  | directory
  | file (text : Option String)
  deriving DecidableEq, Repr

/-- Files and directories, seen from one of the directories. -/
structure FileTree where
  nodes : List (List String × FileTree.Node)
  /-- The place from which relative paths are followed. -/
  current : List String
  deriving Repr

namespace FileTree

/-- What is at a place. -/
def node? (t : FileTree) (place : List String) : Option Node :=
  match t.nodes.lookup place with
  | some node => some node
  | none =>
    if place.isEmpty || t.nodes.any fun e => place.isPrefixOf e.1 then some .directory else none

/-- Whether there is a directory at a place. -/
def isDirectory (t : FileTree) (place : List String) : Bool := t.node? place == some .directory

/-- Where a part of a path leads. -/
def advance (place : List String) (part : String) : List String :=
  if part = "" ∨ part = "." then place
  else if part = ".." then place.dropLast
  else place ++ [part]

/-- The parts of a path, and the place where it begins. -/
def start (t : FileTree) (path : String) : List String × List String :=
  (if PathText.isAbsolute path then [] else t.current,
    (Text.split '/' path.toList).map String.ofList)

/-- The tree with something more at the end of a path. -/
def add (t : FileTree) (path : String) (node : Node) : FileTree :=
  let (place, parts) := t.start path
  { t with nodes := t.nodes ++ [(parts.foldl advance place, node)] }

/-- The place to which the parts of a path lead. -/
def walk? (t : FileTree) (place : List String) : List String → Option (List String)
  | [] => some place
  | part :: rest =>
    let next := advance place part
    if t.isDirectory place && (t.node? next).isSome then t.walk? next rest else none

/-- The place to which a path leads, if there is anything. -/
def place? (t : FileTree) (path : String) : Option (List String) :=
  if path.isEmpty then none
  else
    let (place, parts) := t.start path
    t.walk? place parts

/-- The number of bytes a path may have when it is looked up. -/
def maxPathBytes : Nat := 4095

/-- The place that is looked up by a path: where it leads, unless it is too
long. -/
def lookUp? (t : FileTree) (path : String) : Option (List String) :=
  if path.utf8ByteSize ≤ maxPathBytes then t.place? path else none

/-- Whether a file or a directory is found at a path. -/
def contains (t : FileTree) (path : String) : Bool := (t.lookUp? path).isSome

/-- The text of the file at a path. -/
def read? (t : FileTree) (path : String) : Option String := do
  match t.node? (← t.lookUp? path) with
  | some (.file text) => text
  | _ => none

/-- The path of a place from the root. -/
def placeText (place : List String) : String := "/" ++ "/".intercalate place

/-- The shortest absolute path to where a path leads. -/
def canonical? (t : FileTree) (path : String) : Option String := (t.place? path).map placeText

theorem contains_of_read? {t : FileTree} {path text : String} (h : t.read? path = some text) :
    t.contains path = true := by
  unfold contains
  cases hp : t.lookUp? path with
  | none => simp [read?, hp] at h
  | some place => rfl

theorem read?_of_long (t : FileTree) {path : String} (h : maxPathBytes < path.utf8ByteSize) :
    t.read? path = none := by
  simp [read?, lookUp?, Nat.not_le.mpr h]

theorem walk?_append (t : FileTree) (place : List String) (parts rest : List String) :
    t.walk? place (parts ++ rest) = (t.walk? place parts).bind fun p => t.walk? p rest := by
  induction parts generalizing place with
  | nil => simp [walk?]
  | cons part parts ih =>
    simp only [List.cons_append, walk?]
    split <;> simp [ih]

end FileTree

end ClientRoutes
