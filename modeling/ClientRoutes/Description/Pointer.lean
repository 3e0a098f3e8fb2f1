import ClientRoutes.Text.Edit
import ClientRoutes.Value

/-
  Local references.

  A value with a field `$ref` of the form `#/a/b` refers to what lies under the
  keys `a` and `b` of the root. In a key `~1` stands for a slash and `~0` for a
  tilde. A reference that leads nowhere, and every other value, stands for
  itself.

  What is proved:
    1. `unescape_escape` — a key reads back from its written form.
-/

namespace ClientRoutes.Pointer

open ClientRoutes.Text

/-- A key in its written form. -/
def escape (key : List Char) : List Char :=
  key.flatMap fun c => if c = '~' then ['~', '0'] else if c = '/' then ['~', '1'] else [c]

/-- The key that a written form stands for: first slashes, then tildes. -/
def unescape (s : List Char) : List Char :=
  replaceFrom ['~', '0'] ['~'] 0 (replaceFrom ['~', '1'] ['/'] 0 s)

/-- The keys of a pointer. -/
def keys (pointer : String) : List String :=
  (split '/' pointer.toList).map fun s => String.ofList (unescape s)

/-- What lies under some keys. -/
def follow? (root : Value) (keys : List String) : Option Value :=
  keys.foldlM (fun node key => node.get? key) root

/-- The pointer of a value that is a local reference. -/
def ofValue? (v : Value) : Option String :=
  (v.textAt? "$ref").bind (stripPrefix? "#/")

/-- What a value stands for. -/
def resolve (root v : Value) : Value :=
  match ofValue? v with
  | some pointer => (follow? root (keys pointer)).getD v
  | none => v

theorem replaceFrom_slash_escape (key : List Char) :
    replaceFrom ['~', '1'] ['/'] 0 (escape key) =
      key.flatMap fun c => if c = '~' then ['~', '0'] else [c] := by
  induction key with
  | nil => rfl
  | cons c key ih =>
    simp only [escape, List.flatMap_cons] at ih ⊢
    by_cases h : c = '~'
    · subst h
      simp [replaceFrom, List.isPrefixOf, ih]
    · by_cases h' : c = '/'
      · subst h'
        simp [replaceFrom, List.isPrefixOf, ih]
      · simp [h, h', replaceFrom, List.isPrefixOf, ih, Ne.symm h]

theorem replaceFrom_tilde (key : List Char) :
    replaceFrom ['~', '0'] ['~'] 0 (key.flatMap fun c => if c = '~' then ['~', '0'] else [c]) =
      key := by
  induction key with
  | nil => rfl
  | cons c key ih =>
    simp only [List.flatMap_cons]
    by_cases h : c = '~'
    · subst h
      simp [replaceFrom, List.isPrefixOf, ih]
    · simp [h, replaceFrom, List.isPrefixOf, ih, Ne.symm h]

theorem unescape_escape (key : List Char) : unescape (escape key) = key := by
  rw [unescape, replaceFrom_slash_escape, replaceFrom_tilde]

end ClientRoutes.Pointer
