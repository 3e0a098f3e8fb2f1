import ClientRoutes.Casing
import ClientRoutes.Description.Pointer
import ClientRoutes.Description.TypeExpr
import ClientRoutes.Route

/-
  Schemas of an API description.

  `typeOf` reads the type of a schema: a reference is the type named after it, a
  composition is its only part or the union of its variants, and everything else
  goes by the field `type`. `shapeOf` looks through one reference and finds out
  whether the schema is an array and how its variants are told apart.
-/

namespace ClientRoutes.Schema

/-- The type a reference is named after: its last segment, ending in `Dto`. -/
def referenceName (reference : String) : String :=
  let last := (Text.split '/' reference.toList).getLastD []
  let name := Casing.pascalCase (String.ofList last)
  if Text.endsWith "Dto" name then name else name ++ "Dto"

/-- The list under a key. -/
def itemsAt? (schema : Value) (key : String) : Option (List Value) :=
  (schema.get? key).bind Value.items?

theorem sizeOf_lt_of_mem_itemsAt? {schema v : Value} {key : String} {items : List Value}
    (h : itemsAt? schema key = some items) (hv : v ∈ items) : sizeOf v < sizeOf schema := by
  obtain ⟨w, hw, hi⟩ := Option.bind_eq_some_iff.1 h
  have := Value.sizeOf_lt_of_get? hw
  have := Value.sizeOf_lt_of_mem_items? hi hv
  omega

/-- The variants of a composition: those under `oneOf` if there are any, else
those under `anyOf`. -/
def variants (schema : Value) : List Value :=
  match (itemsAt? schema "oneOf").getD [] with
  | [] => (itemsAt? schema "anyOf").getD []
  | vs => vs

theorem sizeOf_lt_of_mem_variants {schema v : Value} (h : v ∈ variants schema) :
    sizeOf v < sizeOf schema := by
  have aux : ∀ key, v ∈ (itemsAt? schema key).getD [] → sizeOf v < sizeOf schema := by
    intro key hv
    cases hi : itemsAt? schema key with
    | none => simp [hi] at hv
    | some items => exact sizeOf_lt_of_mem_itemsAt? hi (by simpa [hi] using hv)
  unfold variants at h
  split at h
  · exact aux _ h
  · exact aux _ h

/-- The only part of a composition of one part. -/
def onlyPart? (schema : Value) : Option Value :=
  match itemsAt? schema "allOf" with
  | some [part] => some part
  | _ => none

theorem sizeOf_lt_of_onlyPart? {schema v : Value} (h : onlyPart? schema = some v) :
    sizeOf v < sizeOf schema := by
  unfold onlyPart? at h
  split at h
  · next part hp =>
    cases h
    exact sizeOf_lt_of_mem_itemsAt? hp (by simp)
  · simp at h

/-- The schema of the values of a record, if it is written as a mapping. -/
def recordValue? (schema : Value) : Option Value :=
  match schema.get? "additionalProperties" with
  | some (.mapping entries) => some (.mapping entries)
  | _ => none

theorem sizeOf_lt_of_recordValue? {schema v : Value} (h : recordValue? schema = some v) :
    sizeOf v < sizeOf schema := by
  unfold recordValue? at h
  split at h
  · next entries he => cases h; exact Value.sizeOf_lt_of_get? he
  · simp at h

/-- The type of a schema without reference and composition. -/
def plainType (schema : Value) (item record : Option TypeExpr) : TypeExpr :=
  match schema.textAt? "type" with
  | some "array" => .array (item.getD (.name "any"))
  | some "integer" => .name "number"
  | some "number" => .name "number"
  | some "boolean" => .name "boolean"
  | some "string" => .name (if schema.textAt? "format" = some "binary" then "File" else "string")
  | some "object" => (record.map .record).getD (.name "object")
  | some "null" => .name "null"
  | _ => .name (if (schema.get? "properties").isSome then "object" else "any")

/-- The type of a schema. -/
def typeOf (schema : Value) : TypeExpr :=
  match schema.textAt? "$ref" with
  | some reference => .name (referenceName reference)
  | none =>
    match _hp : onlyPart? schema with
    | some part => typeOf part
    | none =>
      if (variants schema).isEmpty then
        plainType schema
          (match _hi : schema.get? "items" with
            | some item => some (typeOf item)
            | none => none)
          (match _hr : recordValue? schema with
            | some value => some (typeOf value)
            | none => none)
      else .union ((variants schema).attach.map fun ⟨v, _⟩ => typeOf v)
termination_by sizeOf schema
decreasing_by
  · exact sizeOf_lt_of_onlyPart? _hp
  · exact Value.sizeOf_lt_of_get? _hi
  · exact sizeOf_lt_of_recordValue? _hr
  · exact sizeOf_lt_of_mem_variants (by assumption)

/-- The text of the type of a schema. -/
def typeName (schema : Value) : String := (typeOf schema).print

/-- The entries of a discriminator mapping. -/
def discriminatorMapping (mapping : Value) : List (String × String) :=
  (mapping.entries?.getD []).filterMap fun (tag, reference) => do
    return (← tag.scalarText?, ← reference.text?)

/-- How the variants of a schema are told apart. -/
def discriminator? (schema : Value) : Option Discriminator := do
  let d ← schema.get? "discriminator"
  let property ← d.textAt? "propertyName"
  let mapping := discriminatorMapping (← d.get? "mapping")
  if mapping.isEmpty then none else some ⟨property, mapping⟩

/-- The shape of a schema. -/
def shapeOf (root schema : Value) : Shape :=
  let target := Pointer.resolve root schema
  { isArray := target.textAt? "type" == some "array"
    discriminator := discriminator? target }

end ClientRoutes.Schema
