import ClientRoutes.Assoc

/-
  TOML documents as nested tables.

  How a table came to be decides what may still be added to it. A table made by
  a header (`opened`) or in braces (`closed`) is not opened again. One that only
  lies on the way of a header (`passed`) may get a header of its own later. One
  that lies on the way of a dotted key (`dotted`) may only be extended by dotted
  keys.

  What is proved:
    1. `define_new`, `define_taken` — a key is defined once.
-/

namespace ClientRoutes.Toml

/-- How a table came to be. -/
inductive Origin where
  | opened
  | passed
  | dotted
  | closed
  deriving DecidableEq, Repr

/-- What a key of a TOML document holds. -/
inductive Item where
  | text (value : String)
  | integer (value : Int)
  | real
  | bool (value : Bool)
  | datetime (text : String)
  | list (items : List Item)
  | table (origin : Origin) (entries : List (String × Item))
  /-- Tables with one header each, the last one first. -/
  | tables (last : List (String × Item)) (earlier : List (List (String × Item)))
  deriving Repr, Inhabited

/-- The entries of a table. -/
abbrev Entries := List (String × Item)

namespace Entries

/-- Puts an entry that is not there yet at the end. -/
def define? (entries : Entries) (key : String) (item : Item) : Option Entries :=
  if (entries.lookup key).isSome then none else some (entries ++ [(key, item)])

theorem define_new {entries : Entries} {key : String} (h : entries.lookup key = none)
    (item : Item) : define? entries key item = some (entries ++ [(key, item)]) := by
  simp [define?, h]

theorem define_taken {entries : Entries} {key : String} {old : Item}
    (h : entries.lookup key = some old) (item : Item) : define? entries key item = none := by
  simp [define?, h]

/-- Changes the table under a key on the way of a header; the last one of
several. -/
def passHeader (entries : Entries) (key : String) (change : Entries → Option Entries) :
    Option Entries :=
  match entries.lookup key with
  | none => (change []).map fun inner => entries ++ [(key, .table .passed inner)]
  | some (.table .closed _) => none
  | some (.table origin inner) =>
    (change inner).map fun inner => Assoc.set key (.table origin inner) entries
  | some (.tables last earlier) =>
    (change last).map fun last => Assoc.set key (.tables last earlier) entries
  | some _ => none

/-- Opens the table of a header. -/
def openTable (entries : Entries) : List String → Option Entries
  | [] => none
  | [key] =>
    match entries.lookup key with
    | none => some (entries ++ [(key, .table .opened [])])
    | some (.table .passed inner) => some (Assoc.set key (.table .opened inner) entries)
    | some _ => none
  | key :: rest => passHeader entries key fun inner => openTable inner rest

/-- Opens one more table of a header in double brackets. -/
def openTables (entries : Entries) : List String → Option Entries
  | [] => none
  | [key] =>
    match entries.lookup key with
    | none => some (entries ++ [(key, .tables [] [])])
    | some (.tables last earlier) => some (Assoc.set key (.tables [] (last :: earlier)) entries)
    | some _ => none
  | key :: rest => passHeader entries key fun inner => openTables inner rest

/-- Defines a key behind the keys of dotted tables. `inDotted` says that the
table at hand is one; the key itself may only be in the table that was opened,
or in a dotted one. -/
def assign (inDotted : Bool) (atFront : Bool) (entries : Entries) :
    List String → Item → Option Entries
  | [], _ => none
  | [key], item => if inDotted || atFront then define? entries key item else none
  | key :: rest, item =>
    match entries.lookup key with
    | none => (assign true false [] rest item).map fun inner =>
        entries ++ [(key, .table .dotted inner)]
    | some (.table .dotted inner) => (assign true false inner rest item).map fun inner =>
        Assoc.set key (.table .dotted inner) entries
    | some (.table .passed inner) => (assign false false inner rest item).map fun inner =>
        Assoc.set key (.table .passed inner) entries
    | some (.tables last earlier) => (assign false false last rest item).map fun last =>
        Assoc.set key (.tables last earlier) entries
    | some _ => none

/-- Changes the table that was opened by the last header. -/
def changeOpened (entries : Entries) (change : Entries → Option Entries) :
    List String → Option Entries
  | [] => change entries
  | key :: rest => passHeader entries key fun inner => changeOpened inner change rest

end Entries

end ClientRoutes.Toml
