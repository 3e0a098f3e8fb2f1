import ClientRoutes.Artifact

/-
  The settings by name.

  There are eight settings with one value each, and one setting for the path of
  every kind of generated file.

  What is proved:
    1. `mem_all` — the list of settings is complete.
    2. `ofKey?_key` — a setting reads back from its key.
-/

namespace ClientRoutes

/-- A setting. -/
inductive Setting where
  | uri
  | username
  | password
  | createSchema
  | projectTemplate
  | format
  | aliases
  | aliasDepth
  | path (kind : Artifact)
  deriving DecidableEq, Repr

namespace Setting

/-- The settings with one value each. -/
def scalars : List Setting :=
  [.uri, .username, .password, .createSchema, .projectTemplate, .format, .aliases, .aliasDepth]

/-- All settings. -/
def all : List Setting := scalars ++ Artifact.all.map .path

/-- What the key of a path begins with. -/
def pathFront : String := "paths."

/-- The key of a setting. -/
def key : Setting → String
  | .uri => "source.uri"
  | .username => "source.username"
  | .password => "source.password"
  | .createSchema => "generate.create_schema"
  | .projectTemplate => "generate.project_template"
  | .format => "generate.format"
  | .aliases => "alias.map"
  | .aliasDepth => "alias.depth"
  | .path kind => pathFront ++ kind.key

/-- The setting with a key. The kind of file in the key of a path may be in
letters of any case. -/
def ofKey? (s : String) : Option Setting :=
  (scalars.find? fun x => x.key = s) <|>
    ((Text.stripPrefix? pathFront s).bind Artifact.ofText?).map .path

theorem mem_all (x : Setting) : x ∈ all := by
  cases x with
  | path kind => simpa [all, scalars] using Artifact.mem_all kind
  | _ => decide

theorem ofKey?_key (x : Setting) : ofKey? x.key = some x := by
  cases x with
  | path kind => cases kind <;> decide
  | _ => decide

end Setting

end ClientRoutes
