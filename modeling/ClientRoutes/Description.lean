import ClientRoutes.Description.Operation
import ClientRoutes.Json.Reader
import ClientRoutes.Yaml.Reader

/-
  API descriptions.

  A description has a version, maybe a title, and the routes of its paths in
  document order. It is read from JSON or YAML; all that can go wrong is the
  syntax, the version and the form of `paths`.
-/

namespace ClientRoutes

/-- An API description. -/
structure Description where
  title : Option String
  version : String
  routes : List Route
  deriving DecidableEq, Repr

namespace Description

/-- Why a text is no API description. -/
inductive Error where
  | yaml (cause : Yaml.Error)
  | json
  | version
  | paths
  deriving DecidableEq, Repr

/-- The words of an error. -/
def Error.message : Error → String
  | .yaml _ => "YAML parse error"
  | .json => "JSON parse error"
  | .version => "missing `openapi` or `swagger` version field"
  | .paths => "`paths` must be a mapping"

/-- The version of a description. -/
def version? (root : Value) : Option String :=
  (root.get? "openapi" <|> root.get? "swagger").bind Value.scalarText?

/-- The method that a key of a path item names. -/
def method? (key : Value) : Option Method := key.text?.bind Method.ofText?

/-- The routes of one path. -/
def pathRoutes (root : Value) (path : String) (item : Value) : List Route :=
  let item := Pointer.resolve root item
  (item.entries?.getD []).filterMap fun (key, operation) =>
    (method? key).map fun method =>
      Operation.route root method path operation (item.get? "parameters")

/-- The routes of all paths. -/
def routesOf (root : Value) (paths : List (Value × Value)) : List Route :=
  paths.flatMap fun (key, item) =>
    match key.text? with
    | some path => pathRoutes root path item
    | none => []

/-- The description that a value holds. -/
def ofValue (root : Value) : Except Error Description :=
  match version? root with
  | none => .error .version
  | some version =>
    let title := (root.get? "info").bind (·.textAt? "title")
    match root.get? "paths" with
    | none => .ok ⟨title, version, []⟩
    | some paths =>
      match paths.entries? with
      | some entries => .ok ⟨title, version, routesOf root entries⟩
      | none => .error .paths

/-- Reads a description from JSON. -/
def ofJson (text : String) : Except Error Description :=
  match Json.read? text with
  | some j => ofValue (Value.ofJson j)
  | none => .error .json

/-- Reads a description from YAML. -/
def ofYaml (text : String) : Except Error Description :=
  match Yaml.read text with
  | .ok v => ofValue v
  | .error e => .error (.yaml e)

/-- Reads a description from YAML, or if that fails from JSON. -/
def ofEither (text : String) : Except Error Description :=
  match ofYaml text with
  | .ok d => .ok d
  | .error _ => ofJson text

end Description

end ClientRoutes
