import ClientRoutes.Json

/-
  Values of an API description.

  A mapping keeps its entries in document order, and its keys are values of any
  kind. A tagged value is a value with a name attached; `untag` looks through
  tags, and so does every accessor that asks what a value is (`text?`, `bool?`,
  `items?`, `entries?`, `get?`). Where a tag makes a difference, code matches on
  the constructors.

  What is proved:
    1. `sizeOf_untag_le`, `sizeOf_lt_of_get?`, `sizeOf_lt_of_mem_items?` — what
       an accessor finds is smaller than what it looks into.
-/

namespace ClientRoutes

/-- A value of an API description. -/
inductive Value where
  | null
  | bool (value : Bool)
  | number (value : Number)
  | text (value : String)
  | list (items : List Value)
  | mapping (entries : List (Value × Value))
  | tagged (tag : String) (value : Value)
  deriving Repr, Inhabited

namespace Value

/-- The value below all tags. -/
def untag : Value → Value
  | .tagged _ v => v.untag
  | v => v

/-- The text of a text. -/
def text? (v : Value) : Option String :=
  match v.untag with
  | .text s => some s
  | _ => none

/-- The truth value of a truth value. -/
def bool? (v : Value) : Option Bool :=
  match v.untag with
  | .bool b => some b
  | _ => none

/-- The items of a list. -/
def items? (v : Value) : Option (List Value) :=
  match v.untag with
  | .list xs => some xs
  | _ => none

/-- The entries of a mapping. -/
def entries? (v : Value) : Option (List (Value × Value)) :=
  match v.untag with
  | .mapping entries => some entries
  | _ => none

/-- The value of the entry whose key is the text `name`. -/
def find? (name : String) : List (Value × Value) → Option Value
  | [] => none
  | (.text s, v) :: rest => if s = name then some v else find? name rest
  | _ :: rest => find? name rest

/-- The value under the text key `name` of a mapping. -/
def get? (v : Value) (name : String) : Option Value :=
  match v.untag with
  | .mapping entries => find? name entries
  | _ => none

/-- The text under a key. -/
def textAt? (v : Value) (name : String) : Option String :=
  (v.get? name).bind text?

/-- A text, or a number as text. A tagged value is neither. -/
def scalarText? : Value → Option String
  | .text s => some s
  | .number n => some n.text
  | _ => none

/-! ## Size -/

theorem sizeOf_untag_le (v : Value) : sizeOf v.untag ≤ sizeOf v := by
  induction v using untag.induct with
  | case1 tag v ih => rw [untag]; simp only [Value.tagged.sizeOf_spec]; omega
  | case2 v h => exact Nat.le_of_eq (congrArg sizeOf (untag.eq_2 v h))

theorem sizeOf_lt_of_find? {name : String} {entries : List (Value × Value)} {w : Value}
    (h : find? name entries = some w) : sizeOf w < sizeOf entries := by
  fun_induction find? name entries with
  | case1 => simp at h
  | case2 v rest =>
    cases h
    simp only [List.cons.sizeOf_spec, Prod.mk.sizeOf_spec]
    omega
  | case3 s v rest hne ih =>
    have := ih h
    simp only [List.cons.sizeOf_spec]
    omega
  | case4 k rest hk ih =>
    have := ih h
    simp only [List.cons.sizeOf_spec]
    omega

theorem sizeOf_lt_of_get? {v w : Value} {name : String} (h : v.get? name = some w) :
    sizeOf w < sizeOf v := by
  have hle := sizeOf_untag_le v
  unfold get? at h
  split at h
  · next entries he =>
    have := sizeOf_lt_of_find? h
    rw [he] at hle
    simp only [Value.mapping.sizeOf_spec] at hle
    omega
  · simp at h

theorem sizeOf_lt_of_mem_items? {v w : Value} {items : List Value} (h : v.items? = some items)
    (hw : w ∈ items) : sizeOf w < sizeOf v := by
  have hle := sizeOf_untag_le v
  unfold items? at h
  split at h
  · next xs hx =>
    cases h
    have := List.sizeOf_lt_of_mem hw
    rw [hx] at hle
    simp only [Value.list.sizeOf_spec] at hle
    omega
  · simp at h

/-! ## Equality

Two mappings are equal when they hold equal entries in any order. -/

mutual

/-- Equality of values. -/
def same : Value → Value → Bool
  | .null, .null => true
  | .bool a, .bool b => a == b
  | .number a, .number b => a.same b
  | .text a, .text b => a == b
  | .list xs, .list ys => sameItems xs ys
  | .mapping es, .mapping fs => es.length == fs.length && sameEntries es fs
  | .tagged s a, .tagged t b => s == t && same a b
  | _, _ => false

/-- Whether two lists hold equal items in the same order. -/
def sameItems : List Value → List Value → Bool
  | [], [] => true
  | x :: xs, y :: ys => same x y && sameItems xs ys
  | _, _ => false

/-- Whether every entry of the first list has an equal one in the second. -/
def sameEntries : List (Value × Value) → List (Value × Value) → Bool
  | [], _ => true
  | (k, v) :: rest, fs => sameEntry k v fs && sameEntries rest fs

/-- Whether the first entry with an equal key has an equal value. -/
def sameEntry (k v : Value) : List (Value × Value) → Bool
  | [] => false
  | (l, w) :: rest => if same k l then same v w else sameEntry k v rest

end

/-- Equality of two optional values. -/
def sameOption : Option Value → Option Value → Bool
  | none, none => true
  | some a, some b => same a b
  | _, _ => false

/-! ## From JSON -/

mutual

/-- The value of a JSON text. -/
def ofJson : Json → Value
  | .null => .null
  | .bool b => .bool b
  | .number n => .number n
  | .text s => .text s
  | .list items => .list (ofItems items)
  | .record fields => .mapping (ofFields fields)

def ofItems : List Json → List Value
  | [] => []
  | x :: rest => ofJson x :: ofItems rest

def ofFields : List (String × Json) → List (Value × Value)
  | [] => []
  | (name, x) :: rest => (.text name, ofJson x) :: ofFields rest

end

end Value

end ClientRoutes
