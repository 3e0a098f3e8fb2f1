import ClientRoutes.Description
import ClientRoutes.Failure
import ClientRoutes.FileTree
import ClientRoutes.Hooks
import ClientRoutes.Route.Module
import ClientRoutes.Settings

/-
  Reports: what is derived from a document.

  A report has one entry for every route and one for every module that has a
  route in it. It may be limited to the routes of one module; the query keys are
  always those of the whole document.

  What is proved:
    1. `mem_insertName` — collecting a name adds it and nothing else.
    2. `pairwise_names` — the names of modules are in strictly increasing order.
-/

namespace ClientRoutes

/-- Everything about one route. -/
structure RouteReport where
  method : Method
  path : String
  module : String
  name : RouteName
  call : Call
  hooks : Hooks
  deriving DecidableEq, Repr

/-- How the files of a module import each other. -/
structure ModuleImports where
  apiToDto : String
  apiToInstance : String
  queriesToApi : String
  mutationsToApi : String
  schemaToDto : String
  deriving DecidableEq, Repr

/-- Everything about one module. -/
structure ModuleReport where
  name : String
  names : ModuleNames
  locations : List (Artifact × Location)
  imports : ModuleImports
  deriving DecidableEq, Repr

/-- What is derived from a document. -/
structure Report where
  document : String
  title : Option String
  version : String
  /-- The number of query keys in the document. -/
  keyCount : Nat
  createSchema : Bool
  projectTemplate : Option String
  modules : List ModuleReport
  routes : List RouteReport
  deriving DecidableEq, Repr

namespace RouteReport

/-- The report on a route. Hooks never depend on validators. -/
def ofRoute (createSchema : Bool) (index : KeyIndex) (route : Route) : RouteReport :=
  let call := Call.ofRoute route
  { method := route.method
    path := route.path
    module := route.module
    name := route.name
    call := if createSchema then call else call.withoutValidators
    hooks := Hooks.ofRoute route call index }

end RouteReport

namespace ModuleReport

/-- The report on a module. -/
def ofName (layout : Layout) (name : String) : ModuleReport where
  name := name
  names := ModuleNames.of name
  locations := Artifact.all.map fun kind => (kind, (layout.location kind).forModule name)
  imports :=
    { apiToDto := layout.importPath .api .dto name
      apiToInstance := layout.importPath .api .apiInstance name
      queriesToApi := layout.importPath .queries .api name
      mutationsToApi := layout.importPath .mutations .api name
      schemaToDto := layout.importPath .schema .dto name }

end ModuleReport

namespace Report

/-! ## The document -/

/-- Whether a document would have to be fetched. -/
def isRemote (uri : String) : Bool :=
  Text.startsWith "http://" uri || Text.startsWith "https://" uri

/-- The path of the document. -/
def documentPath (s : Settings) : Except Failure String :=
  match s.uri with
  | none => .error .noSource
  | some uri =>
    if isRemote uri then .error (.remoteSource uri) else .ok (PathText.join s.directory uri)

/-- The description in the text of a file, in the language that the extension
names. Without a known one it is read in either language. -/
def describe (path text : String) : Except Description.Error Description :=
  match PathText.extension? path with
  | some "yaml" => Description.ofYaml text
  | some "yml" => Description.ofYaml text
  | some "json" => Description.ofJson text
  | _ => Description.ofEither text

/-- Reads the document. It needs at least one route. -/
def readDocument (tree : FileTree) (path : String) : Except Failure Description :=
  match tree.read? path with
  | none => .error (.document path .unreadable)
  | some text =>
    match describe path text with
    | .error cause => .error (.document path (.invalid cause))
    | .ok d => if d.routes.isEmpty then .error (.noRoutes path) else .ok d

/-! ## Modules -/

/-- Puts a name in its place among names in increasing order, unless it is
there. -/
def insertName (name : String) : List String → List String
  | [] => [name]
  | x :: rest =>
    if name = x then x :: rest
    else if name < x then name :: x :: rest
    else x :: insertName name rest

/-- The modules of some routes, each once and in increasing order. -/
def moduleNames (routes : List RouteReport) : List String :=
  routes.foldr (fun r names => insertName r.module names) []

theorem mem_insertName (name other : String) (names : List String) :
    other ∈ insertName name names ↔ other = name ∨ other ∈ names := by
  induction names with
  | nil => simp [insertName]
  | cons x rest ih =>
    rw [insertName]
    split
    · next h => subst h; simp
    · split
      · simp
      · simp only [List.mem_cons, ih]
        constructor
        · rintro (h | h | h) <;> simp [h]
        · rintro (h | h | h) <;> simp [h]

theorem pairwise_insertName (name : String) {names : List String}
    (h : names.Pairwise (· < ·)) : (insertName name names).Pairwise (· < ·) := by
  induction names with
  | nil => simp [insertName]
  | cons x rest ih =>
    obtain ⟨hx, hrest⟩ := List.pairwise_cons.1 h
    rw [insertName]
    split
    · exact h
    · next hne =>
      split
      · next hlt =>
        refine List.pairwise_cons.2 ⟨?_, h⟩
        intro y hy
        rcases List.mem_cons.1 hy with rfl | hy
        · exact hlt
        · exact String.lt_trans hlt (hx y hy)
      · next hnlt =>
        refine List.pairwise_cons.2 ⟨?_, ih hrest⟩
        intro y hy
        rcases (mem_insertName name y rest).1 hy with rfl | hy
        · exact Std.lt_of_le_of_ne (Std.not_lt.1 hnlt) (Ne.symm hne)
        · exact hx y hy

theorem pairwise_names (routes : List RouteReport) :
    (moduleNames routes).Pairwise (· < ·) := by
  induction routes with
  | nil => simp [moduleNames]
  | cons r routes ih => exact pairwise_insertName r.module ih

/-! ## The report -/

/-- The routes that a report is about. -/
def selected (module : Option String) (routes : List Route) : List Route :=
  routes.filter fun r => module.all (r.module == ·)

/-- The report on a description that was read from a path. -/
def ofDescription (s : Settings) (module : Option String) (path : String) (d : Description) :
    Report :=
  let index := KeyIndex.build d.routes
  let routes := (selected module d.routes).map (RouteReport.ofRoute s.createSchema index)
  { document := path
    title := d.title
    version := d.version
    keyCount := index.size
    createSchema := s.createSchema
    projectTemplate := s.projectTemplate
    modules := (moduleNames routes).map (ModuleReport.ofName s.layout)
    routes := routes }

/-- The warnings about a description. -/
def warnings (module : Option String) (d : Description) : List Warning :=
  let index := KeyIndex.build d.routes
  KeyIndex.repetitions d.routes ++
    (selected module d.routes).flatMap fun route => Hooks.warnings route index

/-- The report on the document of the settings, and the warnings about it. -/
def build (tree : FileTree) (s : Settings) (module : Option String) :
    Except Failure (Report × List Warning) := do
  let path ← documentPath s
  let d ← readDocument tree path
  return (ofDescription s module path d, warnings module d)

end Report

end ClientRoutes
