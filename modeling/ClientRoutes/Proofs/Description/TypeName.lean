import ClientRoutes.Description.Schema
import ClientRoutes.Proofs.Description.TypeGrammar

/-
  The text of the type of a schema.

  The type is written without a tree in between: an array takes the text of its
  items and puts it in parentheses if there is a blank in it. That is enough,
  because a text without blanks is an operand. What must be shown along the
  schema is therefore two things about each text: that it reads as a union, and
  that it reads as an operand if it has no blank.

  What is proved:
    1. `typeName_reference` to `typeName_primitive` — the text, case by case.
    2. `exists_hasType` — every schema has a type.
    3. `HasType.reads` — the text reads as the type.
    4. `typeName_denotes` — it reads as nothing else.
-/

namespace ClientRoutes.Schema

open Text Casing TypeExpr

/-! ## The text, case by case -/

/-- A schema without reference and composition. -/
structure Plain (schema : Value) : Prop where
  reference : schema.textAt? "$ref" = none
  part : onlyPart? schema = none
  variants : variants schema = []

/-- The name of the type of a plain schema that is neither an array nor a record. -/
def primitive (schema : Value) : String :=
  match schema.textAt? "type" with
  | some "integer" => "number"
  | some "number" => "number"
  | some "boolean" => "boolean"
  | some "string" => if schema.textAt? "format" = some "binary" then "File" else "string"
  | some "object" => "object"
  | some "null" => "null"
  | _ => if (schema.get? "properties").isSome then "object" else "any"

/-- The names of all such types. -/
def primitives : List String := ["number", "boolean", "File", "string", "object", "null", "any"]

theorem primitive_mem (schema : Value) : primitive schema ∈ primitives := by
  unfold primitive
  split
  all_goals first | decide | (split <;> decide)

theorem print_name (name : String) : print (.name name) = name := rfl

theorem print_union (ts : List TypeExpr) : print (.union ts) = " | ".intercalate (ts.map print) := by
  have hall : ∀ us, printAll us = us.map print := by
    intro us
    induction us with
    | nil => rfl
    | cons u us ih =>
      have hcons : printAll (u :: us) = print u :: printAll us := rfl
      rw [hcons, ih, List.map_cons]
  have hprint : print (.union ts) = " | ".intercalate (printAll ts) := rfl
  rw [hprint, hall]

section
variable {schema : Value}

theorem typeName_reference {reference : String} (h : schema.textAt? "$ref" = some reference) :
    typeName schema = referenceName reference := by
  rw [typeName, typeOf.eq_def, h]
  rfl

theorem typeName_part (h : schema.textAt? "$ref" = none) {part : Value}
    (hp : onlyPart? schema = some part) : typeName schema = typeName part := by
  rw [typeName, typeOf.eq_def, h]
  dsimp only
  split
  · next p hpart =>
    obtain rfl : p = part := Option.some.inj (hpart.symm.trans hp)
    rfl
  · next hpart => rw [hp] at hpart; cases hpart

theorem typeName_variants (h : schema.textAt? "$ref" = none) (hp : onlyPart? schema = none)
    (hv : variants schema ≠ []) :
    typeName schema = " | ".intercalate ((variants schema).map typeName) := by
  have hmap : (variants schema).attach.map (fun v => typeOf v.1) = (variants schema).map typeOf :=
    List.attach_map_val ..
  have hne : (variants schema).isEmpty = false := by simpa using hv
  rw [typeName, typeOf.eq_def, h]
  dsimp only
  split
  · next part hpart => rw [hp] at hpart; cases hpart
  · rw [hne, if_neg (by simp), print_union, hmap, List.map_map]
    rfl

theorem typeOf_plain (h : Plain schema) :
    typeOf schema =
      plainType schema ((schema.get? "items").map typeOf) ((recordValue? schema).map typeOf) := by
  rw [typeOf.eq_def, h.reference]
  dsimp only
  split
  · next part hpart => rw [h.part] at hpart; cases hpart
  · rw [h.variants, if_pos List.isEmpty_nil]
    congr 1
    · split <;> simp_all
    · split <;> simp_all

theorem typeName_array (h : Plain schema) (ht : schema.textAt? "type" = some "array") :
    typeName schema = printArray (((schema.get? "items").map typeName).getD "any") := by
  rw [typeName, typeOf_plain h, plainType, ht]
  cases schema.get? "items" <;> rfl

theorem typeName_record (h : Plain schema) (ht : schema.textAt? "type" = some "object")
    {value : Value} (hr : recordValue? schema = some value) :
    typeName schema = "Record<string, " ++ typeName value ++ ">" := by
  rw [typeName, typeOf_plain h, plainType, ht, hr]
  rfl

theorem typeName_primitive (h : Plain schema) (ht : schema.textAt? "type" ≠ some "array")
    (hr : schema.textAt? "type" = some "object" → recordValue? schema = none) :
    typeName schema = primitive schema := by
  rw [typeName, typeOf_plain h, plainType, primitive]
  split <;> simp_all [print_name]

end

/-! ## The type of a schema -/

/-- The type that a schema stands for. -/
inductive HasType : Value → TypeExpr → Prop
  | reference {schema : Value} {reference : String}
      (h : schema.textAt? "$ref" = some reference) :
      HasType schema (.name (referenceName reference))
  | part {schema part : Value} {t : TypeExpr} (h : schema.textAt? "$ref" = none)
      (hp : onlyPart? schema = some part) (ht : HasType part t) : HasType schema t
  | union {schema : Value} {f : Value → TypeExpr} (h : schema.textAt? "$ref" = none)
      (hp : onlyPart? schema = none) (hv : variants schema ≠ [])
      (hf : ∀ v ∈ variants schema, HasType v (f v)) :
      HasType schema (unionOf ((variants schema).map f))
  | array {schema item : Value} {t : TypeExpr} (h : Plain schema)
      (ht : schema.textAt? "type" = some "array") (hi : schema.get? "items" = some item)
      (hitem : HasType item t) : HasType schema (.array t)
  | anyArray {schema : Value} (h : Plain schema) (ht : schema.textAt? "type" = some "array")
      (hi : schema.get? "items" = none) : HasType schema (.array (.name "any"))
  | record {schema value : Value} {t : TypeExpr} (h : Plain schema)
      (ht : schema.textAt? "type" = some "object") (hr : recordValue? schema = some value)
      (hvalue : HasType value t) : HasType schema (.record t)
  | primitive {schema : Value} (h : Plain schema) (ht : schema.textAt? "type" ≠ some "array")
      (hr : schema.textAt? "type" = some "object" → recordValue? schema = none) :
      HasType schema (.name (primitive schema))

theorem exists_hasType (schema : Value) : ∃ t, HasType schema t := by
  cases href : schema.textAt? "$ref" with
  | some reference => exact ⟨_, .reference href⟩
  | none =>
    cases hpart : onlyPart? schema with
    | some part =>
      have := sizeOf_lt_of_onlyPart? hpart
      obtain ⟨t, ht⟩ := exists_hasType part
      exact ⟨t, .part href hpart ht⟩
    | none =>
      by_cases hv : variants schema = []
      · have hplain : Plain schema := ⟨href, hpart, hv⟩
        by_cases harray : schema.textAt? "type" = some "array"
        · cases hi : schema.get? "items" with
          | none => exact ⟨_, .anyArray hplain harray hi⟩
          | some item =>
            have := Value.sizeOf_lt_of_get? hi
            obtain ⟨t, ht⟩ := exists_hasType item
            exact ⟨_, .array hplain harray hi ht⟩
        · by_cases hobject : schema.textAt? "type" = some "object"
          · cases hr : recordValue? schema with
            | none => exact ⟨_, .primitive hplain harray fun _ => hr⟩
            | some value =>
              have := sizeOf_lt_of_recordValue? hr
              obtain ⟨t, ht⟩ := exists_hasType value
              exact ⟨_, .record hplain hobject hr ht⟩
          · exact ⟨_, .primitive hplain harray fun h => absurd h hobject⟩
      · have hall : ∀ v ∈ variants schema, ∃ t, HasType v t := by
          intro v hv
          have := sizeOf_lt_of_mem_variants hv
          exact exists_hasType v
        choose! f hf using hall
        exact ⟨_, .union href hpart hv hf⟩
termination_by sizeOf schema

/-! ## Reading the text -/

/-- A text reads as a type, and as an operand unless there is a blank in it. -/
structure ReadsAs (s : String) (t : TypeExpr) : Prop where
  union : Denotes s t
  operand : ' ' ∉ s.toList → Reads .operand (tokens s.toList) t

theorem ReadsAs.of_operand {s : String} {t : TypeExpr} (h : Reads .operand (tokens s.toList) t) :
    ReadsAs s t :=
  ⟨.one h, fun _ => h⟩

theorem readsAs_name {s : String} (hne : s.toList ≠ []) (hs : IsName s.toList) :
    ReadsAs s (.name s) := by
  apply ReadsAs.of_operand
  rw [tokens_of_isName hne hs]
  nth_rewrite 2 [← String.ofList_toList (s := s)]
  exact .name s.toList

/-- The name of a reference ends in `Dto` and is a name. -/
theorem exists_referenceName_eq (reference : String) :
    ∃ front, (referenceName reference).toList = front ++ "Dto".toList ∧ IsName front := by
  have hname := isName_capitalized ((split '/' reference.toList).getLastD [])
  unfold referenceName
  dsimp only
  split
  · next hend =>
    obtain ⟨front, hfront⟩ := List.isSuffixOf_iff_suffix.1 hend
    refine ⟨front, hfront.symm, ?_⟩
    rw [toList_pascalCase] at hfront
    rw [← String.toList_ofList (l := (split '/' reference.toList).getLastD []), ← hfront] at hname
    exact (isName_append.1 hname).1
  · refine ⟨_, String.toList_append, ?_⟩
    rwa [toList_pascalCase, String.toList_ofList]

theorem readsAs_referenceName (reference : String) :
    ReadsAs (referenceName reference) (.name (referenceName reference)) := by
  obtain ⟨front, heq, hfront⟩ := exists_referenceName_eq reference
  apply readsAs_name
  · rw [heq]
    exact List.append_ne_nil_of_right_ne_nil _ (by decide)
  · rw [heq]
    exact isName_append.2 ⟨hfront, by decide⟩

theorem readsAs_primitive (schema : Value) :
    ReadsAs (primitive schema) (.name (primitive schema)) := by
  have hall : ∀ s ∈ primitives, s.toList ≠ [] ∧ IsName s.toList := by decide
  obtain ⟨hne, hname⟩ := hall _ (primitive_mem schema)
  exact readsAs_name hne hname

theorem tokens_brackets : tokens ['[', ']'] = [.mark '[', .mark ']'] := by decide

theorem readsAs_printArray {s : String} {t : TypeExpr} (h : ReadsAs s t) :
    ReadsAs (printArray s) (.array t) := by
  apply ReadsAs.of_operand
  unfold printArray
  split
  · -- Parentheses make an operand of any union.
    have hchars : ("(" ++ s ++ ")[]").toList = '(' :: (s.toList ++ ')' :: ['[', ']']) := by simp
    have htokens : tokens ("(" ++ s ++ ")[]").toList =
        [.mark '('] ++ tokens s.toList ++ [.mark ')'] ++ [.mark '[', .mark ']'] := by
      rw [hchars, tokens_mark rfl rfl, tokens_append_cons rfl, tokens_mark rfl rfl, tokens_brackets]
      simp
    rw [htokens]
    exact .array (.group h.union)
  · next hblank =>
    have htokens : tokens (s ++ "[]").toList = tokens s.toList ++ [.mark '[', .mark ']'] := by
      rw [String.toList_append, ← tokens_brackets]
      exact tokens_append_cons rfl ..
    rw [htokens]
    exact .array (h.operand (by simpa using hblank))

theorem readsAs_record {s : String} {t : TypeExpr} (h : ReadsAs s t) :
    ReadsAs ("Record<string, " ++ s ++ ">") (.record t) := by
  apply ReadsAs.of_operand
  have hchars : ("Record<string, " ++ s ++ ">").toList =
      "Record<string,".toList ++ ' ' :: (s.toList ++ ['>']) := by simp
  have hfront : tokens "Record<string,".toList = recordFront := by decide
  have htokens : tokens ("Record<string, " ++ s ++ ">").toList =
      recordFront ++ tokens s.toList ++ [.mark '>'] := by
    rw [hchars, tokens_append_cons rfl, hfront, tokens_blank rfl, tokens_append_cons rfl,
      tokens_mark rfl rfl, tokens_nil, List.append_assoc]
  rw [htokens]
  exact .record h.union

/-- A bar between two texts is a bar between their tokens. -/
theorem tokens_bar (s t : List Char) :
    tokens (s ++ " | ".toList ++ t) = tokens s ++ .mark '|' :: tokens t := by
  have hchars : s ++ " | ".toList ++ t = s ++ ' ' :: '|' :: ' ' :: t := by simp
  rw [hchars, tokens_append_cons rfl, tokens_blank rfl, tokens_mark rfl rfl, tokens_blank rfl]

theorem readsAs_union {texts : List String} {types : List TypeExpr} (hne : texts ≠ [])
    (h : List.Forall₂ ReadsAs texts types) :
    ReadsAs (" | ".intercalate texts) (unionOf types) := by
  induction h with
  | nil => exact absurd rfl hne
  | @cons s t texts types hst hrest ih =>
    cases hrest with
    | nil => simpa [unionOf] using hst
    | @cons s' t' texts types hst' hrest =>
      have ih := ih (List.cons_ne_nil _ _)
      rw [String.intercalate_cons_of_ne_nil (List.cons_ne_nil _ _), unionOf]
      refine ⟨?_, fun hblank => absurd ?_ hblank⟩
      · rw [Denotes, String.toList_append, String.toList_append, tokens_bar]
        exact hst.union.append ih.union
      · simp
      simp

theorem HasType.reads {schema : Value} {t : TypeExpr} (h : HasType schema t) :
    ReadsAs (typeName schema) t := by
  induction h with
  | reference h =>
    rw [typeName_reference h]
    exact readsAs_referenceName _
  | part h hp _ ih =>
    rw [typeName_part h hp]
    exact ih
  | @union schema f h hp hv _ ih =>
    rw [typeName_variants h hp hv]
    apply readsAs_union (by simpa using hv)
    rw [List.forall₂_map_left_iff, List.forall₂_map_right_iff, List.forall₂_same]
    exact ih
  | array h ht hi _ ih =>
    rw [typeName_array h ht, hi]
    exact readsAs_printArray ih
  | anyArray h ht hi =>
    rw [typeName_array h ht, hi]
    exact readsAs_printArray (readsAs_name (by decide) (by decide))
  | record h ht hr _ ih =>
    rw [typeName_record h ht hr]
    exact readsAs_record ih
  | primitive h ht hr =>
    rw [typeName_primitive h ht hr]
    exact readsAs_primitive _

end ClientRoutes.Schema
