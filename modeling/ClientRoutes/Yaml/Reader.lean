import ClientRoutes.Assoc
import ClientRoutes.Yaml.Node.Reader
import ClientRoutes.Yaml.Scalar
import ClientRoutes.Yaml.Token.Stream

/-
  From a YAML text to its value.

  Two passes lie between the node of a document and its value. The first numbers
  the anchors: an anchor gets the number of different names before it, and an
  alias the number its name has at that place. The second replaces every alias
  by the node that was given its number last in the whole document, and reads
  scalars. It is bounded by the nesting of collections and by a budget of alias
  uses that grows with the document.

  A mapping with two equal keys is refused.
-/

namespace ClientRoutes.Yaml

/-- A node whose anchors and aliases are numbers. -/
inductive Linked where
  | reference (anchor : Nat)
  | scalar (tag : Option Tag) (text : String) (plain : Bool)
  | sequence (tag : Option Tag) (items : List Linked)
  | mapping (tag : Option Tag) (entries : List (Linked × Linked))
  deriving Inhabited

/-- The nodes that anchors stand for, in the order in which they begin. -/
abbrev Anchors := List (Nat × Linked)

/-- The number of each name of an anchor so far. -/
abbrev Names := List (String × Nat)

namespace Linked

/-- Gives a name the next number, which is the number of names there are. -/
def declare (names : Names) : Option String → Names × Option Nat
  | none => (names, none)
  | some name => (Assoc.set name names.length names, some names.length)

/-- Registers a node under the number of its anchor, in front of the anchors
inside it. -/
def register (anchor : Option Nat) (node : Linked) (inner : Anchors) : Anchors :=
  match anchor with
  | some n => (n, node) :: inner
  | none => inner

mutual

/-- Numbers the anchors of a node. -/
def ofNode (names : Names) : Node → Except Error (Linked × Anchors × Names)
  | .reference name =>
    match names.lookup name with
    | some n => .ok (.reference n, [], names)
    | none => .error .anchor
  | .scalar p text plain =>
    let (names, anchor) := declare names p.anchor
    let node := .scalar p.tag text plain
    .ok (node, register anchor node [], names)
  | .sequence p items => do
    let (names, anchor) := declare names p.anchor
    let (items, inner, names) ← ofNodes names items
    let node := .sequence p.tag items
    return (node, register anchor node inner, names)
  | .mapping p entries => do
    let (names, anchor) := declare names p.anchor
    let (entries, inner, names) ← ofEntries names entries
    let node := .mapping p.tag entries
    return (node, register anchor node inner, names)

def ofNodes (names : Names) : List Node → Except Error (List Linked × Anchors × Names)
  | [] => .ok ([], [], names)
  | n :: rest => do
    let (x, inner, names) ← ofNode names n
    let (xs, others, names) ← ofNodes names rest
    return (x :: xs, inner ++ others, names)

def ofEntries (names : Names) :
    List (Node × Node) → Except Error (List (Linked × Linked) × Anchors × Names)
  | [] => .ok ([], [], names)
  | (k, v) :: rest => do
    let (k, first, names) ← ofNode names k
    let (v, second, names) ← ofNode names v
    let (entries, others, names) ← ofEntries names rest
    return ((k, v) :: entries, first ++ (second ++ others), names)

end

mutual

/-- The number of events a node consists of: one for a scalar or an alias, and
two for a collection besides those of its parts. -/
def events : Linked → Nat
  | .reference _ => 1
  | .scalar .. => 1
  | .sequence _ items => eventsOfItems items + 2
  | .mapping _ entries => eventsOfEntries entries + 2

def eventsOfItems : List Linked → Nat
  | [] => 0
  | x :: rest => events x + eventsOfItems rest

def eventsOfEntries : List (Linked × Linked) → Nat
  | [] => 0
  | (k, v) :: rest => events k + events v + eventsOfEntries rest

end

/-- The node with a number: the last one registered. -/
def find? (anchors : Anchors) (n : Nat) : Option Linked := anchors.reverse.lookup n

/-- A collection under its tag. Only a name changes it. -/
def attach (tag : Option Tag) (v : Value) : Value :=
  match tag with
  | some (.named name) => .tagged name v
  | _ => v

/-- The value of a scalar. -/
def scalarValue (tag : Option Tag) (text : String) (plain : Bool) : Except Error Value :=
  match tag with
  | some t => Scalar.tagged t text plain
  | none => Scalar.untagged text plain

/-- Values read so far within a budget of alias uses. -/
abbrev Budgeted := StateT Nat (Except Error)

/-- Uses one alias. -/
def useAlias : Budgeted Unit := fun budget =>
  match budget with
  | 0 => .error .repetition
  | budget + 1 => .ok ((), budget)

/-- Follows an alias to its node. -/
def follow (anchors : Anchors) : Linked → Budgeted Linked
  | .reference n => do
    useAlias
    match find? anchors n with
    | some node => return node
    | none => throw .anchor
  | node => return node

/-- Adds an entry to a mapping that does not have its key yet. -/
def addEntry (entries : List (Value × Value)) (k v : Value) :
    Except Error (List (Value × Value)) :=
  if entries.any fun e => e.1.same k then .error .duplicate else .ok ((k, v) :: entries)

/-- The value of a node with at most `depth` open collections. -/
def toValue (anchors : Anchors) : Nat → Linked → Budgeted Value
  | depth, node => do
    match ← follow anchors node, depth with
    | .reference _, _ => throw .anchor
    | .scalar tag text plain, _ => scalarValue tag text plain
    | .sequence .., 0 => throw .depth
    | .sequence tag items, depth + 1 => do
      let values ← items.mapM fun x => toValue anchors depth x
      return attach tag (.list values)
    | .mapping .., 0 => throw .depth
    | .mapping tag entries, depth + 1 => do
      let entries ← entries.foldlM (fun done (k, v) => do
        let k ← toValue anchors depth k
        let v ← toValue anchors depth v
        addEntry done k v) []
      return attach tag (.mapping entries.reverse)

end Linked

/-- The value a YAML text writes; null if it holds no document. -/
def read (s : String) : Except Error Value := do
  let tokens ← Token.ofText s
  match ← Node.ofTokens tokens with
  | none => return .null
  | some node => do
    let (linked, anchors, _) ← Linked.ofNode [] node
    let (value, _) ← (linked.toValue anchors Node.maxDepth).run (100 * linked.events)
    return value

end ClientRoutes.Yaml
