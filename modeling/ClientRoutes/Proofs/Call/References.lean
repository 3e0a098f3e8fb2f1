import ClientRoutes.Call
import ClientRoutes.Description.Operation
import ClientRoutes.Proofs.Call.Validator
import ClientRoutes.Proofs.Description.Shape
import ClientRoutes.Proofs.Text.Edit

/-
  The references whose type has a schema.

  The type of a reference is the last segment of the reference in Pascal case,
  ending in `Dto`. Whether a type has a schema is decided by its text: it must not
  mention a plain type, in letters of any case. So a name that happens to contain
  such a word (`Company` contains `any`) loses its schema, and so does one that
  spells it together with the `d` of the suffix.

  What is proved:
    1. `hasSchema_iff` — which types have a schema.
    2. `infix_append_dto_iff` — of the suffix only the `d` matters.
    3. `hasSchema_referenceName_iff` — which references have one.
    4. `hasSchema_referenceName_company` — two that have none.
-/

namespace ClientRoutes.Validator

open Text Text.Letter Casing

theorem hasSchema_iff {type : String} :
    hasSchema type = true ↔
      type.toList ≠ [] ∧ ∀ word ∈ plainTypes, ¬word.toList <:+: lowerText type.toList := by
  rw [hasSchema, Bool.and_eq_true, Bool.not_eq_true', Bool.not_eq_true', List.any_eq_false]
  simp only [containsChars_eq_true_iff, String.isEmpty_eq_false_iff, ne_eq, String.toList_eq_nil_iff]

/-- The suffix of the types of references in small letters. -/
def smallDto : List Char := ['d', 't', 'o']

theorem lowerText_dto : lowerText dto = smallDto := by decide

/-! ## Words and the suffix -/

/-- Neither of two texts ends in the other. -/
def EndsApart (word back : List Char) : Bool := !word.isSuffixOf back && !back.isSuffixOf word

theorem not_suffix_append {word back : List Char} (h : EndsApart word back = true) (s : List Char) :
    ¬word <:+ s ++ back := by
  intro hword
  rw [EndsApart, Bool.and_eq_true, Bool.not_eq_true', Bool.not_eq_true'] at h
  rcases List.suffix_or_suffix_of_suffix hword (List.suffix_append s back) with hsuffix | hsuffix
  · rw [List.isSuffixOf_iff_suffix.2 hsuffix] at h
    cases h.1
  · rw [List.isSuffixOf_iff_suffix.2 hsuffix] at h
    cases h.2

/-- A word that does not end where a text does is inside what precedes the end. -/
theorem infix_append_concat_iff {word : List Char} (back : List Char) {c : Char}
    (h : EndsApart word (back ++ [c]) = true) (s : List Char) :
    word <:+: s ++ (back ++ [c]) ↔ word <:+: s ++ back := by
  have hend := not_suffix_append h s
  rw [← List.append_assoc] at hend ⊢
  rw [List.infix_concat_iff, or_iff_right hend]

theorem apart_plainTypes : ∀ word ∈ plainTypes, EndsApart word.toList ['d', 't'] = true ∧
    EndsApart word.toList smallDto = true ∧ EndsApart word.toList (smallDto ++ ['d']) = true := by
  decide

/-- No plain type reaches further into the suffix than its first letter. -/
theorem infix_append_dto_iff {word : String} (h : word ∈ plainTypes) (s : List Char) :
    word.toList <:+: s ++ smallDto ↔ word.toList <:+: s ++ ['d'] := by
  obtain ⟨htwo, hthree, -⟩ := apart_plainTypes word h
  exact (infix_append_concat_iff ['d', 't'] hthree s).trans (infix_append_concat_iff ['d'] htwo s)

/-- A letter behind the suffix makes no plain type. -/
theorem infix_dto_append_iff {word : String} (h : word ∈ plainTypes) (s : List Char) :
    word.toList <:+: s ++ smallDto ++ ['d'] ↔ word.toList <:+: s ++ smallDto := by
  obtain ⟨-, -, hfour⟩ := apart_plainTypes word h
  rw [List.append_assoc]
  exact infix_append_concat_iff smallDto hfour s

/-! ## References -/

theorem infix_referenceName_iff {word : String} (h : word ∈ plainTypes) (reference : String) :
    word.toList <:+: lowerText (Schema.referenceName reference).toList ↔
      word.toList <:+: lowerText (capitalized (lastSegment reference).toList) ++ ['d'] := by
  rw [referenceName_eq]
  split
  · next hend =>
    -- The suffix is part of the name.
    rw [toList_pascalCase]
    rw [endsWith, toList_pascalCase] at hend
    obtain ⟨front, hfront⟩ := List.isSuffixOf_iff_suffix.1 hend
    have hdto : "Dto".toList = dto := rfl
    rw [← hfront, hdto, lowerText_append, lowerText_dto, infix_dto_append_iff h]
  · have hdto : (pascalCase (lastSegment reference) ++ "Dto").toList =
        capitalized (lastSegment reference).toList ++ dto := by
      rw [String.toList_append, toList_pascalCase]
      rfl
    rw [hdto, lowerText_append, lowerText_dto, infix_append_dto_iff h]

theorem expression_isSome (type : String) (shape : Option Shape) (subject : Subject) :
    (describe (some type) shape subject).expression.isSome = hasSchema type := by
  rw [describe]
  cases hasSchema type <;> rfl

/-- The type of a reference has a schema exactly if no plain type is found in its
name in Pascal case, followed by the `d` of the suffix, in letters of any case. In
ASCII these are the letters and digits of the name. A request or a response typed
by the reference has an expression exactly then. -/
theorem hasSchema_referenceName_iff (reference : String) :
    (hasSchema (Schema.referenceName reference) = true ↔
      ∀ word ∈ plainTypes, ¬word.toList <:+:
        lowerText (capitalized (lastSegment reference).toList) ++ ['d']) ∧
    (IsAscii (lastSegment reference).toList →
      lowerText (capitalized (lastSegment reference).toList) =
        ((lastSegment reference).toList.filter isWordChar).map Char.toLower) ∧
    ∀ (schema : Value) (route : Route), schema.textAt? "$ref" = some reference →
      (route.payload.map (·.type) = some (Schema.typeName schema) →
        (Call.ofRoute route).request.validator.expression.isSome =
          hasSchema (Schema.referenceName reference)) ∧
      (route.responses.type = some (Schema.typeName schema) →
        (Call.ofRoute route).response.validator.expression.isSome =
          hasSchema (Schema.referenceName reference)) := by
  refine ⟨?_, lowerText_capitalized, fun schema route hschema => ⟨fun h => ?_, fun h => ?_⟩⟩
  · obtain ⟨front, hfront, -⟩ := Schema.exists_referenceName_eq reference
    have hne : (Schema.referenceName reference).toList ≠ [] := by
      rw [hfront]
      exact List.append_ne_nil_of_right_ne_nil _ (by decide)
    rw [hasSchema_iff, and_iff_right hne]
    exact forall₂_congr fun word hword => not_congr (infix_referenceName_iff hword reference)
  · have hvalidator : (Call.ofRoute route).request.validator =
        describe (route.payload.map (·.type)) (route.body.bind (·.shape)) .payload := rfl
    rw [hvalidator, h, expression_isSome, Schema.typeName_reference hschema]
  · have hvalidator : (Call.ofRoute route).response.validator =
        describe route.responses.type (route.responses.success?.bind (·.shape)) .response := rfl
    rw [hvalidator, h, expression_isSome, Schema.typeName_reference hschema]

/-- A route whose payload is a reference to a user profile. -/
def saveProfile : Route :=
  (Route.new .put "/profile" "profile").setPayload
    (Schema.typeName (Schema.referenceTo "user_profile")) false Option.none

/-- The type of a user profile has a schema, and so has a request with it. -/
theorem hasSchema_referenceName_profile :
    hasSchema (Schema.referenceName "#/components/schemas/user_profile") = true ∧
      (Call.ofRoute saveProfile).request.validator.expression.isSome = true := by
  obtain ⟨hiff, hascii, hroutes⟩ :=
    hasSchema_referenceName_iff "#/components/schemas/user_profile"
  have hname : (lastSegment "#/components/schemas/user_profile").toList = "user_profile".toList := by
    rw [toList_lastSegment]
    decide
  have hletters := hascii (by rw [hname]; decide)
  have hschema : hasSchema (Schema.referenceName "#/components/schemas/user_profile") = true := by
    rw [hiff, hletters, hname]
    decide +kernel
  have hrequest := (hroutes (Schema.referenceTo "user_profile") saveProfile rfl).1 rfl
  exact ⟨hschema, hrequest.trans hschema⟩

/-- A response that is a reference to the schema of a name. -/
def answer (name : String) : Value := .mapping [
  (.text "responses", .mapping [(.text "200", .mapping [(.text "schema", Schema.referenceTo name)])])]

/-- The route of an operation that answers with a reference to `Company`. -/
def companies : Route := Operation.route .null .get "/companies" (answer "Company") Option.none

/-- The words `any` and `void` are found in the types of `Company` and `Convoi`. -/
theorem hasSchema_referenceName_company :
    Schema.referenceName "#/components/schemas/Company" = "CompanyDto" ∧
      hasSchema "CompanyDto" = false ∧
      (Call.ofRoute companies).response = ⟨some "CompanyDto", none⟩ ∧
      Schema.referenceName "#/components/schemas/Convoi" = "ConvoiDto" ∧
      hasSchema "ConvoiDto" = false := by
  have hname : Schema.referenceName "#/components/schemas/Company" = "CompanyDto" := by
    decide +kernel
  have hschema : hasSchema "CompanyDto" = false := by decide +kernel
  refine ⟨hname, hschema, ?_, by decide +kernel, by decide +kernel⟩
  have hreference : Schema.typeName (Schema.referenceTo "Company") = "CompanyDto" := by
    rw [Schema.typeName_reference rfl]
    exact hname
  have htype : companies.responses.type = some (Schema.typeName (Schema.referenceTo "Company")) :=
    rfl
  have hresponse : (Call.ofRoute companies).response =
      ⟨companies.responses.type,
        describe companies.responses.type (companies.responses.success?.bind (·.shape)) .response⟩ :=
    rfl
  rw [hresponse, htype, hreference, describe, hschema]
  rfl

end ClientRoutes.Validator
