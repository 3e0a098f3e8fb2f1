import ClientRoutes.Call.Validator
import ClientRoutes.Description.Schema
import ClientRoutes.Proofs.Casing.Recasing

/-
  The two names of the schema behind a reference.

  A body that a reference types directly has the schema of the type named after
  it (`Validator.typeName`); as a variant of a discriminated body the same
  reference has a schema of its own making (`Validator.variantName`). The first
  goes through Pascal case and adds `Dto` only where it is missing; the second
  adds it always.

  What is proved:
    1. `camelChars_append_dto_iff` — what camel case makes of a name in Pascal
       case that `Dto` is added to.
    2. `variantName_eq_iff` — the references for which the two names agree.
    3. `variantName_ne_typeName` — a name that ends in `Dto` and one of two
       single letters, for which they do not.
-/

namespace ClientRoutes.Validator

open Text Text.Letter Casing

/-- The suffix of the types of references. -/
def dto : List Char := ['D', 't', 'o']

theorem words_dto : words dto = [dto] := by decide

theorem capitalized_dto : capitalized dto = dto := by decide

/-- Nothing joins the suffix, which begins with a capital and a small letter. -/
theorem breaks_dto (s : List Char) : Breaks s dto := by
  intro c _ w hw _
  obtain rfl : dto = w := by simpa [words_dto] using hw
  have hcapital : kind 'D' = .upper := by decide
  have hsmall : kind 't' = .lower := by decide
  cases kind c <;> simp [joins, dto, hcapital, hsmall]

/-- A text that is all separators gives the suffix alone, in small letters. -/
theorem camelChars_append_dto_of_eq_nil {s : List Char} (hs : words s = []) :
    camelChars (s ++ dto) = ['d', 't', 'o'] := by
  rw [camelChars, words_append (breaks_dto s), hs, words_dto]
  decide

theorem camelChars_append_dto_iff (s : List Char) :
    camelChars s ++ dto = camelChars (capitalized s ++ dto) ↔
      words s ≠ [] ∧ camelChars (capitalized s) = camelChars s := by
  by_cases hnil : words (capitalized s) = []
  · refine iff_of_false (fun h => ?_) fun h => h.1 (words_eq_nil_of_camelChars ?_)
    · -- The two ends differ in their capital.
      rw [camelChars_append_dto_of_eq_nil hnil] at h
      have hempty : camelChars s = [] := by
        have hlength := congrArg List.length h
        simpa [dto] using hlength
      rw [hempty] at h
      exact absurd h (by decide)
    · rw [← h.2, camelChars, hnil]
  · have hwords : words s ≠ [] := by
      intro h
      exact hnil (by rw [capitalized, h]; rfl)
    rw [camelChars_append (breaks_dto _) hnil, capitalized_dto, List.append_cancel_right_eq]
    exact ⟨fun h => ⟨hwords, h.symm⟩, fun h => h.2.symm⟩

/-- Where the suffix is there already, the two names differ by one `d`. -/
theorem camelChars_append_dto_ne (s : List Char) :
    camelChars s ++ dto ≠ camelChars (capitalized s) := by
  intro h
  have hdees := congrArg dees h
  have hone : dees dto = 1 := by decide
  rw [dees_append, dees_camelChars, dees_camelChars, dees_capitalized, hone] at hdees
  omega

theorem variantName_eq_iff_append (reference : String) (type : String) :
    variantName reference = typeName type ↔
      camelChars (lastSegment reference).toList ++ dto = camelChars type.toList := by
  have hsuffix : "DtoSchema".toList = dto ++ "Schema".toList := by decide
  rw [variantName, typeName, ← String.toList_inj, String.toList_append, String.toList_append,
    toList_camelCase, toList_camelCase, hsuffix, ← List.append_assoc, List.append_cancel_right_eq]

theorem toList_lastSegment (reference : String) :
    (lastSegment reference).toList = (split '/' reference.toList).getLastD [] :=
  String.toList_ofList

theorem names_describe {type : String} {shape : Option Shape} {subject : Subject}
    (h : shape.bind (·.discriminator) = Option.none) :
    (describe (some type) shape subject).names =
      if hasSchema type then [typeName type] else [] := by
  rw [describe, apply_ite names, ofType, h]
  rfl

theorem referenceName_eq (reference : String) :
    Schema.referenceName reference =
      if endsWith "Dto" (pascalCase (lastSegment reference)) then
        pascalCase (lastSegment reference)
      else pascalCase (lastSegment reference) ++ "Dto" :=
  rfl

/-- The two schemas of a reference are the same exactly if its last segment has
words, does not end in `Dto` once it is in Pascal case, and has the camel case
that its Pascal case has. In ASCII the last holds unless two words of a single
letter meet. A body without discriminator has the schema of its type, if the type
can have one. -/
theorem variantName_eq_iff (reference : String) :
    (variantName reference = typeName (Schema.referenceName reference) ↔
      words (lastSegment reference).toList ≠ [] ∧
        endsWith "Dto" (pascalCase (lastSegment reference)) = false ∧
        camelCase (pascalCase (lastSegment reference)) = camelCase (lastSegment reference)) ∧
    (IsAscii (lastSegment reference).toList →
      (camelCase (pascalCase (lastSegment reference)) = camelCase (lastSegment reference) ↔
        (words (lastSegment reference).toList).IsChain Apart)) ∧
    ∀ shape subject, shape.bind (·.discriminator) = Option.none →
      (describe (some (Schema.referenceName reference)) shape subject).names =
        if hasSchema (Schema.referenceName reference) then
          [typeName (Schema.referenceName reference)]
        else [] := by
  refine ⟨?_, camelCase_pascalCase_iff, fun _ _ => names_describe⟩
  generalize hname : lastSegment reference = name
  rw [variantName_eq_iff_append, referenceName_eq, hname]
  -- Whether the type gets a suffix is all that the two ways differ in.
  cases hend : endsWith "Dto" (pascalCase name) with
  | true =>
    refine iff_of_false ?_ (by simp)
    rw [if_pos rfl, toList_pascalCase]
    exact camelChars_append_dto_ne name.toList
  | false =>
    have hdto : (pascalCase name ++ "Dto").toList = capitalized name.toList ++ dto := by
      rw [String.toList_append, toList_pascalCase]
      rfl
    rw [if_neg (by simp), hdto, camelChars_append_dto_iff, ← String.toList_inj, toList_camelCase,
      toList_camelCase, toList_pascalCase, eq_self, true_and]

theorem variantName_eq_iff_profile :
    variantName "#/schemas/user_profile" = typeName (Schema.referenceName "#/schemas/user_profile") ∧
      (describe (some (Schema.referenceName "#/schemas/user_profile")) Option.none .response).names =
        ["userProfileDtoSchema"] := by
  obtain ⟨hnames, hascii, hdescribe⟩ := variantName_eq_iff "#/schemas/user_profile"
  have hname : (lastSegment "#/schemas/user_profile").toList = "user_profile".toList := by
    rw [toList_lastSegment]
    decide
  have hwords : words "user_profile".toList = ["user".toList, "profile".toList] := by decide
  rw [hname] at hascii hnames
  have hcase := (hascii (by decide)).2 (by
    rw [hwords, List.isChain_pair]
    rintro ⟨⟨c, hc, -⟩, -⟩
    cases hc)
  have hend : endsWith "Dto" (pascalCase (lastSegment "#/schemas/user_profile")) = false := by
    rw [endsWith, toList_pascalCase, hname]
    decide
  have hsame := hnames.2 ⟨by rw [hwords]; simp, hend, hcase⟩
  have htype : Schema.referenceName "#/schemas/user_profile" = "UserProfileDto" := by
    rw [referenceName_eq, if_neg (by simp [hend]), ← String.toList_inj, String.toList_append,
      toList_pascalCase, hname]
    decide
  refine ⟨hsame, ?_⟩
  rw [hdescribe Option.none .response rfl, htype, if_pos (by decide), typeName, List.singleton_inj,
    ← String.toList_inj, String.toList_append, toList_camelCase]
  decide

/-- The schemas that a variant and a body of one reference have, where `Dto` is
added twice and where two single letters meet. -/
theorem variantName_ne_typeName :
    variantName "#/components/schemas/CatDto" = "catDtoDtoSchema" ∧
      typeName (Schema.referenceName "#/components/schemas/CatDto") = "catDtoSchema" ∧
      variantName "#/components/schemas/x_y" = "xYDtoSchema" ∧
      typeName (Schema.referenceName "#/components/schemas/x_y") = "xyDtoSchema" := by
  decide +kernel

end ClientRoutes.Validator
