import ClientRoutes.TextMap
import ClientRoutes.Text.Digit
import ClientRoutes.Toml.Reader

/-
  Settings as a TOML file gives them.

  A file has the sections `source`, `generate`, `alias` and `paths`, all of them
  optional; other keys do not matter. The first three may also be lists, with
  their values in a fixed order. A value of the wrong kind makes the file
  invalid.
-/

namespace ClientRoutes

/-- The settings of a file. -/
structure FileSettings where
  uri : Option String
  username : Option String
  password : Option String
  createSchema : Option Bool
  projectTemplate : Option String
  /-- The name of a format, which may not exist. -/
  format : Option String
  /-- Aliases and their directories. -/
  roots : TextMap String
  aliasDepth : Option Nat
  /-- Paths by the names of kinds of files, which may not exist. -/
  paths : TextMap String
  deriving DecidableEq, Repr

namespace FileSettings

/-- The values of a section, by name or in order. -/
inductive Fields where
  | named (entries : Toml.Entries)
  | ordered (items : List Toml.Item)

/-- How a date reads as a table. -/
def dateEntries (text : String) : Toml.Entries :=
  [("$__toml_private_datetime", .text text)]

/-- The values of an item that is a section. -/
def Fields.ofItem? : Toml.Item → Option Fields
  | .table _ entries => some (.named entries)
  | .tables last earlier =>
    some (.ordered ((earlier.reverse ++ [last]).map (Toml.Item.table .opened)))
  | .list items => some (.ordered items)
  | .datetime text => some (.named (dateEntries text))
  | _ => none

/-- The item of a field, if there is one. A field has one or two names and is
given at most once; in a list it has to be there. -/
def Fields.find? (fields : Fields) (index : Nat) (names : List String) :
    Option (Option Toml.Item) :=
  match fields with
  | .named entries =>
    match names.filterMap fun name => entries.lookup name with
    | [] => some none
    | [item] => some (some item)
    | _ => none
  | .ordered items => items[index]?.map some

/-- The value of a field, if there is one. -/
def Fields.read? {α : Type} (fields : Fields) (index : Nat) (names : List String)
    (value? : Toml.Item → Option α) : Option (Option α) := do
  match ← fields.find? index names with
  | none => some none
  | some item => (value? item).map some

/-- The text an item is. -/
def text? : Toml.Item → Option String
  | .text s => some s
  | _ => none

/-- The truth value an item is. -/
def bool? : Toml.Item → Option Bool
  | .bool b => some b
  | _ => none

/-- The count an item is. -/
def count? : Toml.Item → Option Nat
  | .integer i => if 0 ≤ i then some i.toNat else none
  | _ => none

/-- The texts by name that an item is. -/
def texts? (item : Toml.Item) : Option (TextMap String) :=
  match Fields.ofItem? item with
  | some (.named entries) =>
    (entries.mapM fun entry => (text? entry.2).map (entry.1, ·)).map TextMap.ofList
  | _ => none

/-- The section with a name; without one it has no values. -/
def section? (document : Toml.Entries) (name : String) : Option Fields :=
  match document.lookup name with
  | none => some (.named [])
  | some item => Fields.ofItem? item

/-- The aliases of a section. A list may lack them. -/
def roots? (fields : Fields) : Option (TextMap String) :=
  match fields with
  | .ordered [] => some .empty
  | _ => (fields.read? 0 ["map"] texts?).map (·.getD .empty)

/-- The paths of a document. -/
def paths? (document : Toml.Entries) : Option (TextMap String) :=
  match document.lookup "paths" with
  | none => some .empty
  | some item => texts? item

/-- The settings of a document. -/
def ofDocument? (document : Toml.Entries) : Option FileSettings := do
  let source ← section? document "source"
  let generate ← section? document "generate"
  let shortcuts ← section? document "alias"
  return {
    uri := ← source.read? 0 ["uri"] text?
    username := ← source.read? 1 ["username"] text?
    password := ← source.read? 2 ["password"] text?
    createSchema := ← generate.read? 0 ["create_schema", "createSchema"] bool?
    projectTemplate := ← generate.read? 1 ["project_template", "projectTemplate"] text?
    format := ← generate.read? 2 ["format"] text?
    roots := ← roots? shortcuts
    aliasDepth := ← shortcuts.read? 1 ["depth"] count?
    paths := ← paths? document }

/-- The settings in the text of a file. -/
def ofToml? (text : String) : Option FileSettings := (Toml.read? text).bind ofDocument?

/-- Renames a key of the paths, unless there is one with the new name. -/
def renamePath (paths : TextMap String) (old new : String) : TextMap String :=
  match paths.get? old with
  | none => paths
  | some path =>
    let rest := paths.erase old
    if rest.contains new then rest else rest.insert new path

/-- The settings with `query` and `mutation` among the paths renamed to the
plural. -/
def modernize (f : FileSettings) : FileSettings :=
  { f with
    paths := renamePath (renamePath f.paths "query" "queries") "mutation" "mutations" }

end FileSettings

end ClientRoutes
