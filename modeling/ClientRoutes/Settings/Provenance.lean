import ClientRoutes.Settings.Setting
import ClientRoutes.TextMap

/-
  Where the values of settings come from.

  What is proved:
    1. `get?_set_self`, `get?_set_of_ne` — recording an origin changes that of
       one key and no other.
-/

namespace ClientRoutes

/-- Where a value comes from. -/
inductive Origin where
  | builtIn
  | userFile (path : String)
  | projectFile (path : String)
  | environment (name : String)
  | commandLine (flag : String)
  deriving DecidableEq, Repr

/-- An origin in words. -/
def Origin.text : Origin → String
  | .builtIn => "default"
  | .userFile path => "user config (" ++ path ++ ")"
  | .projectFile path => "project config (" ++ path ++ ")"
  | .environment name => "env var (" ++ name ++ ")"
  | .commandLine flag => "CLI flag (" ++ flag ++ ")"

/-- The origins of values by the keys of their settings. -/
structure Provenance where
  origins : TextMap Origin
  deriving DecidableEq, Repr

namespace Provenance

/-- Nothing recorded. -/
def empty : Provenance := ⟨.empty⟩

/-- Records the origin of a value. -/
def set (p : Provenance) (key : String) (origin : Origin) : Provenance :=
  ⟨p.origins.insert key origin⟩

/-- The origin of the value of a key. -/
def get? (p : Provenance) (key : String) : Option Origin := p.origins.get? key

/-- The number of keys. -/
def size (p : Provenance) : Nat := p.origins.entries.length

/-- All origins in the order of their keys. -/
def entries (p : Provenance) : List (String × Origin) := p.origins.entries

/-- The origins of values that are not built in. -/
def overridden (p : Provenance) : List (String × Origin) :=
  p.entries.filter fun e => e.2 ≠ .builtIn

/-- Records one origin for some settings. -/
def setAll (p : Provenance) (settings : List Setting) (origin : Setting → Origin) : Provenance :=
  settings.foldl (fun p s => p.set s.key (origin s)) p

/-- Every setting with its built-in value. -/
def builtIn : Provenance := empty.setAll Setting.all fun _ => .builtIn

theorem get?_set_self (p : Provenance) (key : String) (origin : Origin) :
    (p.set key origin).get? key = some origin :=
  p.origins.get?_insert_self key origin

theorem get?_set_of_ne (p : Provenance) {key other : String} (h : other ≠ key)
    (origin : Origin) : (p.set key origin).get? other = p.get? other :=
  p.origins.get?_insert_of_ne h origin

end Provenance

end ClientRoutes
