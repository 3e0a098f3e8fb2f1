import ClientRoutes.Casing
import ClientRoutes.Route

/-
  Validation schemas of request and response bodies.

  A body has a validator if its type can have a generated schema. The validator
  of a list checks its items, and that of a discriminated body picks the schema
  of the variant by the value of the discriminating property.

  What is proved:
    1. `names_eq_nil_iff` — a validator names no schemas exactly when it has no
       expression or dispatches over no variants.
-/

namespace ClientRoutes

/-- The validator of a body. -/
structure Validator where
  /-- The names of the schemas the expression refers to. -/
  names : List String
  expression : Option String
  deriving DecidableEq, Repr

namespace Validator

/-- No validator. -/
def none : Validator := ⟨[], Option.none⟩

/-- What a body belongs to. -/
inductive Subject where
  | payload
  | response
  deriving DecidableEq, Repr

/-- The variable that holds the body. -/
def Subject.variable : Subject → String
  | .payload => "payload"
  | .response => "response"

/-- Types without a schema of their own. -/
def plainTypes : List String := ["void", "any", "null", "undefined", "object", "string"]

/-- Whether a type can have a generated schema: it mentions no plain type, in
letters of any case. -/
def hasSchema (type : String) : Bool :=
  !type.isEmpty &&
    let lower := Text.Letter.lowerText type.toList
    !plainTypes.any fun t => Text.containsChars t.toList lower

/-- The last segment of a reference. -/
def lastSegment (reference : String) : String :=
  String.ofList ((Text.split '/' reference.toList).getLastD [])

/-- The schema that a discriminator refers to. -/
def variantName (reference : String) : String :=
  Casing.camelCase (lastSegment reference) ++ "DtoSchema"

/-- The schema of a type. -/
def typeName (type : String) : String := Casing.camelCase type ++ "Schema"

/-- One case of a dispatch. -/
def dispatchCase (property tag reference : String) : String :=
  "with(\x7b " ++ property ++ ": \"" ++ tag ++ "\" \x7d, () => " ++ variantName reference ++ ")"

/-- The expression that picks the schema of a variant. -/
def dispatch (subject : Subject) (d : Discriminator) : String :=
  "match(" ++ subject.variable ++ ")." ++
    ".".intercalate (d.mapping.map fun (tag, reference) => dispatchCase d.property tag reference) ++
    ".otherwise(()=>null)"

/-- The validator of a body of a type with a schema. -/
def ofType (type : String) (shape : Option Shape) (subject : Subject) : Validator :=
  let discriminator := shape.bind (·.discriminator)
  { names := match discriminator with
      | some d => d.mapping.map fun (_, reference) => variantName reference
      | .none => [typeName type]
    expression := some <|
      if shape.any (·.isArray) then "z.array(" ++ typeName type ++ ")"
      else match discriminator with
        | some d => dispatch subject d
        | .none => typeName type }

/-- The validator of a body. -/
def describe (type : Option String) (shape : Option Shape) (subject : Subject) : Validator :=
  match type with
  | some t => if hasSchema t then ofType t shape subject else none
  | .none => none

theorem names_eq_nil_iff (type : String) (shape : Option Shape) (subject : Subject) :
    (ofType type shape subject).names = [] ↔
      ∃ s d, shape = some s ∧ s.discriminator = some d ∧ d.mapping = [] := by
  cases shape with
  | none => simp [ofType]
  | some s => cases hd : s.discriminator <;> simp [ofType, hd]

end Validator

end ClientRoutes
