import ClientRoutes.Settings.Resolution

/-
  Settings in words: all of them with their origins, or one kind of file in
  detail. The password is never shown.
-/

namespace ClientRoutes.Resolution

/-- A text, or what stands for none. -/
def orNone (s : Option String) : String := s.getD "(none)"

/-- The aliases in braces. -/
def aliasesText (a : AliasMap) : String :=
  "\x7b" ++
    ", ".intercalate (a.roots.entries.map fun (name, root) => name ++ " => " ++ root) ++ "\x7d"

/-- The value of a setting in words. -/
def valueText (s : Settings) : Setting → String
  | .uri => orNone s.uri
  | .username => orNone s.username
  | .password => orNone (s.password.map fun _ => "********")
  | .createSchema => if s.createSchema then "true" else "false"
  | .projectTemplate => orNone s.projectTemplate
  | .format => s.format.name
  | .aliases => aliasesText s.aliases
  | .aliasDepth => toString s.aliasDepth
  | .path kind => Layout.pathOf s.paths kind

/-- What stands for a value or an origin that is not known. -/
def unknown : String := "(unknown)"

/-- The line of a setting. -/
def settingLine (s : Settings) (key : String) (origin : Origin) : String :=
  let value := ((Setting.ofKey? key).map (valueText s)).getD unknown
  "  " ++ key ++ ": " ++ value ++ " <- " ++ origin.text ++ "\n"

/-- The lines for the files that were read. -/
def filesText (files : List String) : String :=
  if files.isEmpty then "Loaded config files: (none)\n"
  else
    "Loaded config files:\n" ++
      String.join (files.zipIdx.map fun (path, i) =>
        "  " ++ toString (i + 1) ++ ". " ++ path ++ "\n")

/-- The line that says that the credentials are not used, if there are any. -/
def credentialsNote (s : Settings) : String :=
  if s.username.isSome || s.password.isSome then
    "  note: source.username/source.password are not used, remote documents are never fetched\n"
  else ""

/-- The line that counts the settings that are not built in, if there are any. -/
def overriddenNote (p : Provenance) : String :=
  let count := p.overridden.length
  if 0 < count then "  (" ++ toString count ++ " overridden)\n" else ""

/-- All settings. -/
def overview (r : Resolution) : String :=
  filesText r.files ++ "\nResolved settings:\n" ++
    String.join (r.provenance.entries.map fun (key, origin) => settingLine r.settings key origin) ++
    overriddenNote r.provenance ++ credentialsNote r.settings ++ "\n" ++ r.settings.layout.table

/-- The answer to a text that names no kind of file. -/
def explainUnknown (category : String) : String :=
  "Unknown artifact category: " ++ category ++ "\nAvailable categories: " ++
    ", ".intercalate (Artifact.all.map Artifact.key) ++ "\n"

/-- A kind of file in detail. -/
def explainArtifact (r : Resolution) (kind : Artifact) : String :=
  let location := r.settings.layout.location kind
  let key := (Setting.path kind).key
  let origin := ((r.provenance.get? key).map Origin.text).getD unknown
  "Artifact: " ++ kind.key ++ "\n\n" ++
    "  " ++ key ++ ": " ++ location.relative ++ " <- " ++ origin ++ "\n" ++
    "  default: " ++ kind.defaultPath ++ "\n" ++
    "  absolute: " ++ location.absolute ++ "\n" ++
    "  alias: " ++ location.specifier ++ "\n"

/-- The kind of file that a text names in detail. -/
def explain (r : Resolution) (category : String) : String :=
  match Artifact.ofText? category with
  | some kind => explainArtifact r kind
  | none => explainUnknown category

end ClientRoutes.Resolution
