import ClientRoutes.Settings
import ClientRoutes.Settings.File
import ClientRoutes.Settings.Provenance
import ClientRoutes.Warning

/-
  Layers of settings.

  A layer says something about some of the settings. Laid over other settings it
  replaces what it speaks of: single values one by one, the aliases as a whole,
  and the paths kind by kind. There are layers from a settings file, from the
  environment, and from the command line.

  What is proved:
    1. `laidOver_nothing` — a layer that says nothing changes nothing.
-/

namespace ClientRoutes

/-- What one source says about the settings. -/
structure Layer where
  uri : Option String
  username : Option String
  password : Option String
  createSchema : Option Bool
  projectTemplate : Option String
  format : Option ReportFormat
  /-- Aliases and their directories. An empty list says nothing. -/
  roots : List (String × String)
  aliasDepth : Option Nat
  paths : PathOverrides
  /-- Where a setting comes from if the layer speaks of it. -/
  origin : Setting → Origin

namespace Layer

/-- A layer that says nothing. -/
def nothing (origin : Setting → Origin) : Layer where
  uri := none
  username := none
  password := none
  createSchema := none
  projectTemplate := none
  format := none
  roots := []
  aliasDepth := none
  paths := []
  origin := origin

/-- Whether a layer speaks of a setting. -/
def defines (l : Layer) : Setting → Bool
  | .uri => l.uri.isSome
  | .username => l.username.isSome
  | .password => l.password.isSome
  | .createSchema => l.createSchema.isSome
  | .projectTemplate => l.projectTemplate.isSome
  | .format => l.format.isSome
  | .aliases => !l.roots.isEmpty
  | .aliasDepth => l.aliasDepth.isSome
  | .path kind => (l.paths.lookup kind).isSome

/-- Paths with those of a layer laid over them. -/
def overPaths (new old : PathOverrides) : PathOverrides :=
  new.foldl (fun paths (kind, path) => Assoc.set kind path paths) old

/-- Settings with a layer laid over them. -/
def laidOver (l : Layer) (s : Settings) : Settings :=
  { s with
    uri := l.uri <|> s.uri
    username := l.username <|> s.username
    password := l.password <|> s.password
    createSchema := l.createSchema.getD s.createSchema
    projectTemplate := l.projectTemplate <|> s.projectTemplate
    format := l.format.getD s.format
    aliases := if l.roots.isEmpty then s.aliases else (AliasMap.new s.directory).insertAll l.roots
    aliasDepth := l.aliasDepth.getD s.aliasDepth
    paths := overPaths l.paths s.paths }

/-- Origins with those of a layer laid over them. -/
def originsOver (l : Layer) (p : Provenance) : Provenance :=
  p.setAll (Setting.all.filter l.defines) l.origin

theorem laidOver_nothing (origin : Setting → Origin) (s : Settings) :
    (nothing origin).laidOver s = s := by
  simp [nothing, laidOver, overPaths]

end Layer

/-! ## Files -/

/-- Whose settings a file holds. -/
inductive Scope where
  | user
  | project
  deriving DecidableEq, Repr

/-- The name of a scope. -/
def Scope.name : Scope → String
  | .user => "user"
  | .project => "project"

/-- The origin of what a settings file says. -/
def Scope.origin : Scope → String → Origin
  | .user, path => .userFile path
  | .project, path => .projectFile path

/-- Why there are no settings. -/
inductive SettingsError where
  | unreadable (scope : Scope) (path : String)
  | malformed (scope : Scope)
  | unknownFormat (text : String) (origin : Origin)
  | unknownArtifact (key : String) (origin : Origin)
  | missingDirectory (path : String)
  deriving DecidableEq, Repr

/-- The words of an error. -/
def SettingsError.message : SettingsError → String
  | .unreadable scope path => "Could not read " ++ scope.name ++ " config: " ++ path
  | .malformed scope => "Invalid " ++ scope.name ++ " config"
  | .unknownFormat text origin =>
    ReportFormat.unknownMessage text ++ " (in " ++ origin.text ++ ")"
  | .unknownArtifact key origin =>
    Artifact.unknownMessage key ++ " (in [paths] of " ++ origin.text ++ ")"
  | .missingDirectory path => "Invalid path: " ++ path

namespace Layer

/-- The format a file names. -/
def fileFormat (origin : Origin) (text : Option String) :
    Except SettingsError (Option ReportFormat) :=
  match text with
  | none => .ok none
  | some s =>
    match ReportFormat.ofText? s with
    | some format => .ok (some format)
    | none => .error (.unknownFormat s origin)

/-- The paths a file gives, in the order of their keys. -/
def filePaths (origin : Origin) (entries : List (String × String)) :
    Except SettingsError PathOverrides :=
  entries.mapM fun entry =>
    match Artifact.ofText? entry.1 with
    | some kind => .ok (kind, entry.2)
    | none => .error (.unknownArtifact entry.1 origin)

/-- The layer of the settings in a file. -/
def ofFile (origin : Origin) (f : FileSettings) : Except SettingsError Layer := do
  let format ← fileFormat origin f.format
  let paths ← filePaths origin f.paths.entries
  return {
    uri := f.uri
    username := f.username
    password := f.password
    createSchema := f.createSchema
    projectTemplate := f.projectTemplate
    format := format
    roots := f.roots.entries
    aliasDepth := f.aliasDepth
    paths := overPaths paths []
    origin := fun _ => origin }

end Layer

/-! ## Environment -/

/-- The variables of the environment. -/
abbrev Environment := TextMap String

namespace Layer

/-- The variable for a setting; empty where there is none. -/
def variableName : Setting → String
  | .uri => "SWAGGER_AUTOGEN_URI"
  | .format => "SWAGGER_AUTOGEN_FORMAT"
  | .createSchema => "SWAGGER_AUTOGEN_CREATE_SCHEMA"
  | .aliasDepth => "SWAGGER_AUTOGEN_ALIAS_DEPTH"
  | _ => ""

/-- Whether a text says yes. -/
def isYes (s : String) : Bool := s == "1" || Text.sameIgnoringCase "true" s

/-- The layer of the environment. A format or a depth that cannot be read says
nothing. -/
def ofEnvironment (env : Environment) : Layer :=
  { nothing fun s => .environment (variableName s) with
    uri := env.get? (variableName .uri)
    format := (env.get? (variableName .format)).bind ReportFormat.ofText?
    createSchema := (env.get? (variableName .createSchema)).map isYes
    aliasDepth := (env.get? (variableName .aliasDepth)).bind fun s => Text.readUInt64? s.toList }

/-- The warning about a format in the environment that does not exist. -/
def environmentWarnings (env : Environment) : List Warning :=
  match env.get? (variableName .format) with
  | some s =>
    if (ReportFormat.ofText? s).isNone then [.unknownFormat (ReportFormat.unknownMessage s)] else []
  | none => []

end Layer

/-! ## Command line -/

/-- The settings that a command line gives. -/
structure Overrides where
  uri : Option String
  format : Option ReportFormat
  createSchema : Option Bool
  aliasDepth : Option Nat
  deriving DecidableEq, Repr

/-- A command line that gives no settings. -/
def Overrides.none : Overrides := ⟨.none, .none, .none, .none⟩

namespace Layer

/-- The flag for a setting; empty where there is none. -/
def flagName : Setting → String
  | .uri => "<document>"
  | .format => "--format"
  | .createSchema => "--no-schema"
  | .aliasDepth => "--alias-depth"
  | _ => ""

/-- The layer of a command line. -/
def ofOverrides (o : Overrides) : Layer :=
  { nothing fun s => .commandLine (flagName s) with
    uri := o.uri
    format := o.format
    createSchema := o.createSchema
    aliasDepth := o.aliasDepth }

end Layer

end ClientRoutes
