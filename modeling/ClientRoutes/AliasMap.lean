import ClientRoutes.Path
import ClientRoutes.TextMap

/-
  Import aliases.

  An alias is a short text such as `@` that stands for a directory. `resolve`
  turns an aliased import into one relative to the importing file, unless that
  takes too many steps up. `derive` turns the path of a file into an aliased
  import. Directories that are not absolute are seen from `base`.
-/

namespace ClientRoutes

/-- Aliases and the directories they stand for. -/
structure AliasMap where
  /-- The directory from which relative ones are seen. -/
  base : String
  roots : TextMap String
  deriving DecidableEq, Repr

namespace AliasMap

/-- No aliases. -/
def new (base : String) : AliasMap := ⟨base, .empty⟩

/-- A directory without slashes at its end. -/
def trimRoot (root : String) : String :=
  String.ofList ((root.toList.reverse.dropWhile fun c => c == '/' || c == '\\').reverse)

/-- Adds an alias. -/
def insert (a : AliasMap) (name root : String) : AliasMap :=
  { a with roots := a.roots.insert name (trimRoot root) }

/-- Adds some aliases in order. -/
def insertAll (a : AliasMap) (entries : List (String × String)) : AliasMap :=
  entries.foldl (fun a (name, root) => a.insert name root) a

/-- The alias `@` for `src`. -/
def standard (base : String) : AliasMap := (new base).insert "@" "src"

/-- An entry with the greatest measure, the last one of several. -/
def lastGreatest? {α : Type} (measure : α → Nat) (xs : List α) : Option α :=
  xs.foldl (fun best x =>
    match best with
    | some b => if measure b ≤ measure x then some x else best
    | none => some x) none

/-- A text without the extension of a source file. -/
def withoutExtension (s : String) : String :=
  (Text.stripSuffix? ".tsx" s <|> Text.stripSuffix? ".ts" s).getD s

/-- A text with slashes for backslashes. -/
def withSlashes (s : String) : String := Text.replaceChar '\\' '/' s

/-! ## From alias to file -/

/-- An alias that an import uses: the alias, its directory, and the rest. -/
structure Match where
  name : String
  root : String
  rest : String
  deriving DecidableEq, Repr

/-- The aliases that an import begins with. -/
def candidates (a : AliasMap) (specifier : String) : List Match :=
  a.roots.entries.filterMap fun (name, root) =>
    (Text.stripPrefix? (name ++ "/") specifier).map fun rest => ⟨name, root, rest⟩

/-- The longest alias that an import begins with. -/
def match? (a : AliasMap) (specifier : String) : Option Match :=
  lastGreatest? (fun m => m.name.utf8ByteSize) (a.candidates specifier)

/-- Where a path leads, seen from the base. -/
def anchor (a : AliasMap) (p : Path) : Path := ((Path.ofText a.base).join p).normalize

/-- The file that a match stands for. -/
def target (a : AliasMap) (m : Match) : Path :=
  a.anchor ((Path.ofText m.root).join (Path.ofText m.rest))

/-- A relative path as an import. -/
def relativeSpecifier (p : Path) : String :=
  let s := withoutExtension (withSlashes p.text)
  if s.toList.head? == some '.' then s else "./" ++ s

/-- The relative import of a target, if it goes up at most `maxDepth` times. -/
def shorten? (directory target : Path) (maxDepth : Nat) : Option String := do
  let relative ← Path.relativeTo? directory target
  if relative.ups ≤ maxDepth then some (relativeSpecifier relative) else none

/-- An import as it is written in a file: relative if it uses an alias and is
near enough, and otherwise as it is. -/
def resolve (a : AliasMap) (file specifier : String) (maxDepth : Nat) : String :=
  match a.match? specifier with
  | none => specifier
  | some m =>
    let directory := (a.anchor (Path.ofText file)).parent
    (shorten? directory (a.target m) maxDepth).getD specifier

/-! ## From file to alias -/

/-- A directory that contains a file: its alias, its depth, and the rest. -/
structure Container where
  name : String
  depth : Nat
  rest : Path
  deriving DecidableEq, Repr

/-- A path seen from the base, where that contains it. -/
def localize (a : AliasMap) (p : Path) : Path :=
  if p.absolute then
    match (Path.ofText a.base).stripPrefix? p with
    | some rest => rest.normalize
    | none => p.normalize
  else p.normalize

/-- The directories of aliases that contain a path. -/
def containers (a : AliasMap) (p : Path) : List Container :=
  a.roots.entries.filterMap fun (name, root) =>
    let root := (Path.ofText root).normalize
    (root.stripPrefix? p).map fun rest => ⟨name, root.depth, rest⟩

/-- The import of what lies in a directory. -/
def specifier (c : Container) : String :=
  let rest := withoutExtension (withSlashes c.rest.text)
  if rest.isEmpty then c.name else c.name ++ "/" ++ rest

/-- The aliased import of a file, by the deepest directory that contains it.
Without one it is the path without its extension. -/
def derive (a : AliasMap) (path : String) : String :=
  match lastGreatest? Container.depth (a.containers (a.localize (Path.ofText path))) with
  | some c => specifier c
  | none => withoutExtension (withSlashes path)

end AliasMap

end ClientRoutes
