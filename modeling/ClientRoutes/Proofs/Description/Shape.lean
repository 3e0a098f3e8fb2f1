import ClientRoutes.Call.Validator
import ClientRoutes.Proofs.Description.TypeName

/-
  Arrays in the type of a schema and in its shape.

  The type of a schema is an array if its text ends in brackets; its shape is one
  if the field `type` says so. For a schema that is neither a reference nor a
  composition the two agree. A reference has the name of its target as its type,
  which is never written with brackets, but the shape of the target; a union ends
  in brackets with its last variant, and is an array if it says so beside its
  variants. What the validator of a body does follows the shape.

  What is proved:
    1. `endsWith_referenceName`, `endsWith_union`, `endsWith_plain` — where the
       text of a type ends in brackets.
    2. `isList_describe_iff` — which validators check a list.
    3. `brackets_eq_isArray` — how text, shape and validator go together.
    4. `brackets_ne_isArray` — schemas for which they do not.
-/

namespace ClientRoutes

open Text Casing

/-! ## Brackets at the end of a text -/

theorem endsWith_brackets_append (s : String) : endsWith "[]" (s ++ "[]") = true := by
  rw [endsWith, String.toList_append]
  exact List.isSuffixOf_iff_suffix.2 (List.suffix_append _ _)

theorem endsWith_brackets_of_getLast? {s : String} {c : Char} (h : s.toList.getLast? = some c)
    (hc : c ≠ ']') : endsWith "[]" s = false := by
  rw [Bool.eq_false_iff]
  intro hend
  obtain ⟨front, hfront⟩ := List.isSuffixOf_iff_suffix.1 hend
  rw [← hfront, List.getLast?_append] at h
  exact hc (Option.some.inj h).symm

/-- Brackets at the end do not reach into what is in front of a bar. -/
theorem endsWith_brackets_bar (s t : String) : endsWith "[]" (s ++ " | " ++ t) = endsWith "[]" t := by
  have hback : ∀ u, endsWith "[]" u = [']', '['].isPrefixOf u.toList.reverse := fun _ => rfl
  rw [hback, hback, String.toList_append, String.toList_append, List.reverse_append,
    List.reverse_append]
  -- Fewer than two characters behind the bar leave the blank in the way.
  rcases t.toList.reverse with _ | ⟨c, _ | ⟨d, rest⟩⟩
  · rfl
  · simp [List.isPrefixOf]
  · rfl

namespace Schema

theorem endsWith_printArray (item : String) : endsWith "[]" (TypeExpr.printArray item) = true := by
  unfold TypeExpr.printArray
  split
  · have hsplit : "(" ++ item ++ ")[]" = "(" ++ item ++ ")" ++ "[]" := by
      rw [← String.toList_inj]
      simp
    rw [hsplit]
    exact endsWith_brackets_append _
  · exact endsWith_brackets_append item

theorem endsWith_referenceName (reference : String) :
    endsWith "[]" (referenceName reference) = false := by
  obtain ⟨front, heq, -⟩ := exists_referenceName_eq reference
  apply endsWith_brackets_of_getLast? (c := 'o')
  · rw [heq, List.getLast?_append]
    rfl
  · decide

theorem endsWith_primitive (schema : Value) : endsWith "[]" (primitive schema) = false := by
  have hall : ∀ name ∈ primitives, endsWith "[]" name = false := by decide
  exact hall _ (primitive_mem schema)

variable {schema : Value}

theorem endsWith_union (h : schema.textAt? "$ref" = none) (hp : onlyPart? schema = none)
    {last : Value} (hlast : (variants schema).getLast? = some last) :
    endsWith "[]" (typeName schema) = endsWith "[]" (typeName last) := by
  obtain ⟨front, hfront⟩ := List.getLast?_eq_some_iff.1 hlast
  have hne : variants schema ≠ [] := by simp [hfront]
  rw [typeName_variants h hp hne, hfront, List.map_append, List.map_singleton]
  by_cases hnil : front = []
  · rw [hnil, List.map_nil, List.nil_append, String.intercalate_singleton]
  · rw [String.intercalate_append_of_ne_nil (by simpa using hnil) (List.cons_ne_nil _ _),
      String.intercalate_singleton, endsWith_brackets_bar]

theorem endsWith_plain (h : Plain schema) :
    endsWith "[]" (typeName schema) = (schema.textAt? "type" == some "array") := by
  by_cases harray : schema.textAt? "type" = some "array"
  · rw [typeName_array h harray, endsWith_printArray, harray, beq_self_eq_true]
  · rw [beq_eq_false_iff_ne.2 harray]
    by_cases hrecord : schema.textAt? "type" = some "object" → recordValue? schema = none
    · rw [typeName_primitive h harray hrecord, endsWith_primitive]
    · obtain ⟨hobject, hsome⟩ := Classical.not_imp.1 hrecord
      obtain ⟨value, hvalue⟩ := Option.ne_none_iff_exists'.1 hsome
      rw [typeName_record h hobject hvalue]
      apply endsWith_brackets_of_getLast? (c := '>')
      · rw [String.toList_append, List.getLast?_append]
        rfl
      · decide

/-! ## Shapes -/

theorem isArray_eq (h : schema.textAt? "$ref" = none) (root : Value) :
    (shapeOf root schema).isArray = (schema.textAt? "type" == some "array") := by
  have hself : Pointer.resolve root schema = schema := by
    rw [Pointer.resolve, Pointer.ofValue?, h]
    rfl
  rw [shapeOf, hself]

end Schema

/-! ## Validators -/

namespace Validator

/-- Whether a validator checks each item of a list. -/
def IsList (v : Validator) : Prop := ∃ item, v.expression = some ("z.array(" ++ item ++ ")")

/-- The name of a schema is no expression for a list. -/
theorem typeName_ne_list (type item : String) : typeName type ≠ "z.array(" ++ item ++ ")" := by
  intro h
  have hname : IsName (typeName type).toList := by
    rw [typeName, String.toList_append, toList_camelCase]
    exact isName_append.2 ⟨isName_camelChars _, by decide⟩
  rw [h, String.toList_append, String.toList_append] at hname
  exact absurd (hname '(' (by simp)) (by decide)

theorem dispatch_ne_list (subject : Subject) (d : Discriminator) (item : String) :
    dispatch subject d ≠ "z.array(" ++ item ++ ")" := by
  intro h
  have hhead := congrArg (fun s : String => s.toList.head?) h
  simp [dispatch] at hhead

theorem isList_describe_iff (type : String) (shape : Option Shape) (subject : Subject) :
    (describe (some type) shape subject).IsList ↔
      hasSchema type = true ∧ shape.any (·.isArray) = true := by
  rw [describe]
  split
  · next hschema =>
    simp only [hschema, true_and]
    by_cases hlist : shape.any (·.isArray) = true
    · exact iff_of_true ⟨_, by rw [ofType, if_pos hlist]⟩ hlist
    · refine iff_of_false ?_ hlist
      rintro ⟨item, h⟩
      rw [ofType, if_neg hlist, Option.some_inj] at h
      split at h
      · exact dispatch_ne_list _ _ _ h
      · exact typeName_ne_list _ _ h
  · next hschema =>
    refine iff_of_false ?_ fun h => hschema h.1
    rintro ⟨item, h⟩
    cases h

end Validator

/-! ## Together -/

namespace Schema

/-- Text, shape and validator of a body with a given schema. For a plain schema
the text ends in brackets exactly if the shape is an array. The text of a
reference never does, and the shape goes by the target; the text of a union does
so if its last variant does, and the shape goes by the field `type` of the union.
The validator checks a list exactly if the shape is an array and the type can have
a schema, and never does without a shape. -/
theorem brackets_eq_isArray (root schema : Value) (subject : Validator.Subject) :
    (Plain schema → endsWith "[]" (typeName schema) = (shapeOf root schema).isArray) ∧
    (∀ reference, schema.textAt? "$ref" = some reference →
      endsWith "[]" (typeName schema) = false ∧
        (shapeOf root schema).isArray =
          ((Pointer.resolve root schema).textAt? "type" == some "array")) ∧
    (schema.textAt? "$ref" = none → onlyPart? schema = none →
      ∀ last, (variants schema).getLast? = some last →
        endsWith "[]" (typeName schema) = endsWith "[]" (typeName last) ∧
          (shapeOf root schema).isArray = (schema.textAt? "type" == some "array")) ∧
    ((Validator.describe (some (typeName schema)) (some (shapeOf root schema)) subject).IsList ↔
      Validator.hasSchema (typeName schema) = true ∧ (shapeOf root schema).isArray = true) ∧
    ¬(Validator.describe (some (typeName schema)) none subject).IsList := by
  refine ⟨fun h => ?_, fun reference h => ⟨?_, rfl⟩, fun h hp last hlast => ⟨?_, ?_⟩, ?_, ?_⟩
  · rw [endsWith_plain h, isArray_eq h.reference]
  · rw [typeName_reference h, endsWith_referenceName]
  · exact endsWith_union h hp hlast
  · exact isArray_eq h root
  · rw [Validator.isList_describe_iff, Option.any_some]
  · rw [Validator.isList_describe_iff]
    simp

/-- A reference to a schema of an API description. -/
def referenceTo (name : String) : Value :=
  .mapping [(.text "$ref", .text ("#/components/schemas/" ++ name))]

/-- The schema of texts. -/
def text : Value := .mapping [(.text "type", .text "string")]

/-- The array of what a schema describes. -/
def arrayOf (item : Value) : Value := .mapping [(.text "type", .text "array"), (.text "items", item)]

/-- The union of what some schemas describe. -/
def oneOf (variants : List Value) : Value := .mapping [(.text "oneOf", .list variants)]

/-- An array that has variants itself. -/
def arrayOfVariants : Value :=
  .mapping [(.text "type", .text "array"), (.text "oneOf", .list [referenceTo "User"])]

/-- A document with one schema. -/
def documentOf (name : String) (schema : Value) : Value :=
  .mapping [(.text "components", .mapping [(.text "schemas", .mapping [(.text name, schema)])])]

/-- A list of users, a reference to a user, and the union of a list and a user. -/
theorem brackets_eq_isArray_users :
    endsWith "[]" (typeName (arrayOf (referenceTo "User"))) = true ∧
      (shapeOf .null (arrayOf (referenceTo "User"))).isArray = true ∧
      endsWith "[]" (typeName (referenceTo "User")) = false ∧
      (shapeOf (documentOf "User" text) (referenceTo "User")).isArray = false ∧
      endsWith "[]" (typeName (oneOf [arrayOf text, referenceTo "User"])) = false ∧
      (shapeOf .null (oneOf [arrayOf text, referenceTo "User"])).isArray = false := by
  have hplain : Plain (arrayOf (referenceTo "User")) := ⟨rfl, rfl, rfl⟩
  have hlist := (brackets_eq_isArray .null (arrayOf (referenceTo "User")) .response).1 hplain
  have hreference :=
    (brackets_eq_isArray (documentOf "User" text) (referenceTo "User") .response).2.1 _ rfl
  have hunion := (brackets_eq_isArray .null (oneOf [arrayOf text, referenceTo "User"])
    .response).2.2.1 rfl rfl _ rfl
  refine ⟨hlist, rfl, hreference.1, hreference.2, ?_, hunion.2⟩
  rw [hunion.1]
  exact hreference.1

/-- A reference to a list is an array without brackets, a union whose last variant
is a list has brackets without being an array, and so the other way round where
an array has variants. A list of texts is an array with brackets that no validator
checks, and so is any list in a body without shape. -/
theorem brackets_ne_isArray :
    (endsWith "[]" (typeName (referenceTo "Users")) = false ∧
      (shapeOf (documentOf "Users" (arrayOf text)) (referenceTo "Users")).isArray = true) ∧
    (endsWith "[]" (typeName (oneOf [referenceTo "User", arrayOf text])) = true ∧
      (shapeOf .null (oneOf [referenceTo "User", arrayOf text])).isArray = false) ∧
    (endsWith "[]" (typeName arrayOfVariants) = false ∧
      (shapeOf .null arrayOfVariants).isArray = true) ∧
    (typeName (arrayOf text) = "string[]" ∧ (shapeOf .null (arrayOf text)).isArray = true ∧
      ¬(Validator.describe (some "string[]") (some (shapeOf .null (arrayOf text)))
        .response).IsList) ∧
    ¬(Validator.describe (some "UserDto[]") none .response).IsList := by
  have hplain : Plain (arrayOf text) := ⟨rfl, rfl, rfl⟩
  have htext : typeName text = "string" :=
    typeName_primitive ⟨rfl, rfl, rfl⟩ (by decide) fun h => absurd h (by decide)
  have hlist : typeName (arrayOf text) = "string[]" := by
    have hitem : (arrayOf text).get? "items" = some text := rfl
    rw [typeName_array hplain rfl, hitem, Option.map_some, htext]
    rfl
  refine ⟨⟨?_, rfl⟩, ⟨?_, rfl⟩, ⟨?_, rfl⟩, ⟨hlist, rfl, ?_⟩, ?_⟩
  · rw [typeName_reference rfl, endsWith_referenceName]
  · have hlast : (variants (oneOf [referenceTo "User", arrayOf text])).getLast? =
        some (arrayOf text) := rfl
    rw [endsWith_union rfl rfl hlast, hlist]
    rfl
  · rw [endsWith_union rfl rfl rfl, typeName_reference rfl, endsWith_referenceName]
  · rw [Validator.isList_describe_iff]
    decide
  · rw [Validator.isList_describe_iff]
    decide

end Schema

end ClientRoutes
