import ClientRoutes.Call.Validator
import ClientRoutes.Description.Schema
import ClientRoutes.Proofs.Script.Names

/-
  The schemas that the expression of a validator refers to.

  A validator names the schemas that have to be imported for its expression. The
  names follow the discriminator of the body; the expression asks first whether
  the body is a list. Reading the expression tells which schemas it refers to.

  What is proved:
    1. `mentions_dispatch` — a dispatch refers to the schemas of its variants.
    2. `schemas_of_list`, `schemas_of_not_list` — what an expression refers to, with
       and without a list.
    3. `schemas_iff_names` — the names are the schemas the expression refers to,
       unless a list has variants.
    4. `schemas_ne_names` — a list of that kind, and bodies for which the rest
       fails.
-/

namespace ClientRoutes.Validator

open Text Casing Script

/-- Whether a name is that of a schema. -/
def isSchema (name : String) : Bool := endsWith "Schema" name

/-- The schemas that the expression of a validator refers to. -/
def schemas (v : Validator) : List String :=
  ((v.expression.map Script.names).getD []).filter isSchema

/-- A whole piece of code refers to these schemas. -/
def Mentions (code : List Char) (schemas : List String) : Prop :=
  ∃ ns, read .between code = (ns, .between) ∧ (ns.map String.ofList).filter isSchema = schemas

theorem Mentions.append {code rest : List Char} {ss ts : List String} (h : Mentions code ss)
    (hrest : Mentions rest ts) : Mentions (code ++ rest) (ss ++ ts) := by
  obtain ⟨ns, hread, rfl⟩ := h
  obtain ⟨ms, hread', rfl⟩ := hrest
  exact ⟨ns ++ ms, read_append hread hread', by rw [List.map_append, List.filter_append]⟩

theorem Mentions.filter_names {code : String} {ss : List String} (h : Mentions code.toList ss) :
    (Script.names code).filter isSchema = ss := by
  obtain ⟨ns, hread, rfl⟩ := h
  rw [Script.names, hread]
  simp [State.pending]

/-! ## Names of schemas -/

/-- The text of a name followed by what all schemas end in. -/
theorem isSchema_append (s : String) : isSchema (s ++ "Schema") = true := by
  rw [isSchema, endsWith, String.toList_append]
  exact List.isSuffixOf_iff_suffix.2 (List.suffix_append _ _)

/-- A name that can be read and is that of a schema. -/
structure IsSchemaName (name : String) : Prop where
  isName : IsName name.toList
  isSchema : isSchema name = true

theorem isSchemaName_camelCase (s suffix : String) (hsuffix : IsName suffix.toList)
    (hschema : ∀ t, Validator.isSchema (t ++ suffix) = true) :
    IsSchemaName (camelCase s ++ suffix) := by
  refine ⟨?_, hschema _⟩
  rw [String.toList_append, toList_camelCase]
  exact isName_append.2 ⟨isName_camelChars _, hsuffix⟩

theorem isSchemaName_typeName (type : String) : IsSchemaName (typeName type) :=
  isSchemaName_camelCase type "Schema" (by decide) isSchema_append

theorem isSchemaName_variantName (reference : String) : IsSchemaName (variantName reference) := by
  refine isSchemaName_camelCase _ "DtoSchema" (by decide) fun t => ?_
  have hsplit : t ++ "DtoSchema" = t ++ "Dto" ++ "Schema" := by
    rw [String.append_assoc]
    rfl
  rw [hsplit]
  exact isSchema_append _

theorem IsSchemaName.ne_nil {name : String} (h : IsSchemaName name) : name.toList ≠ [] := by
  intro hnil
  have hschema := h.isSchema
  rw [Validator.isSchema, endsWith, hnil] at hschema
  cases hschema

/-- A schema as the whole of some code. -/
theorem IsSchemaName.filter_names {name : String} (h : IsSchemaName name) :
    (Script.names name).filter Validator.isSchema = [name] := by
  rw [Script.names, read_name h.ne_nil h.isName]
  simp [State.pending, h.isSchema]

/-- A schema in front of a closing parenthesis. -/
theorem IsSchemaName.mentions {name : String} (h : IsSchemaName name) :
    Mentions (name.toList ++ [')']) [name] := by
  have hclose : read (.inName name.toList) [')'] = ([name.toList], .between) := rfl
  refine ⟨[name.toList], read_append (read_name h.ne_nil h.isName) hclose, ?_⟩
  simp [h.isSchema]

/-! ## Dispatches -/

/-- Written in a dispatch, the property and its values stay what they are: the
property is a key that refers to no schema, and no value ends its quotes. -/
structure Contained (d : Discriminator) : Prop where
  property : Mentions (d.property.toList ++ [':']) []
  tags : ∀ e ∈ d.mapping, read (.inQuotes '"') e.1.toList = ([], .inQuotes '"')

/-- A property that is a name, and values without quotes and backslashes. -/
theorem contained_of_plain {d : Discriminator} (hne : d.property.toList ≠ [])
    (hproperty : IsName d.property.toList)
    (htags : ∀ e ∈ d.mapping, e.1.toList.all (isPlain '"') = true) : Contained d := by
  have hkey : read (.inName d.property.toList) [':'] = ([], .between) := rfl
  exact ⟨⟨_, read_append (read_name hne hproperty) hkey, rfl⟩, fun e he => read_quoted (htags e he)⟩

theorem mentions_dispatchCase {property tag : String} (reference : String)
    (hproperty : Mentions (property.toList ++ [':']) [])
    (htag : read (.inQuotes '"') tag.toList = ([], .inQuotes '"')) :
    Mentions (dispatchCase property tag reference).toList [variantName reference] := by
  have hfront : Mentions "with(\x7b ".toList [] := ⟨_, rfl, by decide⟩
  have hvalue : Mentions (" \"".toList ++ (tag.toList ++ "\" \x7d, () => ".toList)) [] := by
    have hopen : read .between " \"".toList = ([], .inQuotes '"') := rfl
    have hclose : read (.inQuotes '"') "\" \x7d, () => ".toList = ([], .between) := rfl
    exact ⟨_, read_append hopen (read_append htag hclose), rfl⟩
  have hcase : (dispatchCase property tag reference).toList =
      "with(\x7b ".toList ++ ((property.toList ++ [':']) ++
        ((" \"".toList ++ (tag.toList ++ "\" \x7d, () => ".toList)) ++
          ((variantName reference).toList ++ [')']))) := by
    simp [dispatchCase]
  rw [hcase]
  exact hfront.append (hproperty.append (hvalue.append (isSchemaName_variantName reference).mentions))

theorem mentions_cases {property : String} (hproperty : Mentions (property.toList ++ [':']) [])
    {mapping : List (String × String)}
    (htags : ∀ e ∈ mapping, read (.inQuotes '"') e.1.toList = ([], .inQuotes '"')) :
    Mentions (".".intercalate (mapping.map fun e => dispatchCase property e.1 e.2)).toList
      (mapping.map fun e => variantName e.2) := by
  induction mapping with
  | nil => exact ⟨[], rfl, rfl⟩
  | cons e rest ih =>
    obtain ⟨htag, hrest⟩ := List.forall_mem_cons.1 htags
    have hcase := mentions_dispatchCase e.2 hproperty htag
    by_cases hnil : rest = []
    · subst hnil
      simpa using hcase
    · have hdot : Mentions ".".toList [] := ⟨[], rfl, rfl⟩
      rw [List.map_cons, List.map_cons, String.intercalate_cons_of_ne_nil (by simpa using hnil),
        String.toList_append, String.toList_append, List.append_assoc]
      exact hcase.append (hdot.append (ih hrest))

theorem mentions_dispatch (subject : Subject) {d : Discriminator} (h : Contained d) :
    Mentions (dispatch subject d).toList (d.mapping.map fun e => variantName e.2) := by
  have hfront : Mentions ("match(" ++ subject.variable ++ ").").toList [] := by
    cases subject <;> exact ⟨_, rfl, by decide⟩
  have hback : Mentions ".otherwise(()=>null)".toList [] := ⟨_, rfl, by decide⟩
  have hall := (hfront.append (mentions_cases h.property h.tags)).append hback
  rw [List.nil_append, List.append_nil, ← String.toList_append, ← String.toList_append] at hall
  exact hall

/-! ## Validators -/

section
variable {type : String} {shape : Option Shape} {subject : Subject}

theorem names_of_discriminator {d : Discriminator} (hd : shape.bind (·.discriminator) = some d) :
    (ofType type shape subject).names = d.mapping.map fun e => variantName e.2 := by
  rw [ofType, hd]

theorem names_of_no_discriminator (hd : shape.bind (·.discriminator) = Option.none) :
    (ofType type shape subject).names = [typeName type] := by
  rw [ofType, hd]

theorem schemas_of_list (hlist : shape.any (·.isArray) = true) :
    (ofType type shape subject).schemas = [typeName type] := by
  have hexpression : (ofType type shape subject).expression =
      some ("z.array(" ++ typeName type ++ ")") := by
    rw [ofType, if_pos hlist]
  have hmentions : Mentions ("z.array(" ++ typeName type ++ ")").toList [typeName type] := by
    have hfront : Mentions "z.array(".toList [] := ⟨_, rfl, by decide⟩
    rw [String.toList_append, String.toList_append, List.append_assoc]
    exact hfront.append (isSchemaName_typeName type).mentions
  rw [schemas, hexpression, Option.map_some, Option.getD_some]
  exact hmentions.filter_names

theorem schemas_of_not_list (hlist : ¬shape.any (·.isArray) = true)
    (h : ∀ d, shape.bind (·.discriminator) = some d → Contained d) :
    (ofType type shape subject).schemas = (ofType type shape subject).names := by
  cases hd : shape.bind (·.discriminator) with
  | none =>
    have hexpression : (ofType type shape subject).expression = some (typeName type) := by
      rw [ofType, hd, if_neg hlist]
    rw [names_of_no_discriminator hd, schemas, hexpression, Option.map_some, Option.getD_some]
    exact (isSchemaName_typeName type).filter_names
  | some d =>
    have hexpression : (ofType type shape subject).expression = some (dispatch subject d) := by
      rw [ofType, hd, if_neg hlist]
    rw [names_of_discriminator hd, schemas, hexpression, Option.map_some, Option.getD_some]
    exact (mentions_dispatch subject (h d hd)).filter_names

/-- In a list only the schema of its type is referred to, whatever its variants. -/
theorem schemas_iff_names_ofType (h : ∀ d, shape.bind (·.discriminator) = some d → Contained d) :
    (∀ n, n ∈ (ofType type shape subject).schemas ↔ n ∈ (ofType type shape subject).names) ↔
      (shape.any (·.isArray) = true → ∀ d, shape.bind (·.discriminator) = some d →
        d.mapping ≠ [] ∧ ∀ e ∈ d.mapping, variantName e.2 = typeName type) := by
  by_cases hlist : shape.any (·.isArray) = true
  · rw [schemas_of_list hlist]
    cases hd : shape.bind (·.discriminator) with
    | none =>
      rw [names_of_no_discriminator hd]
      simp
    | some d =>
      rw [names_of_discriminator hd]
      simp only [hlist, List.mem_singleton, List.mem_map, true_implies, Option.some_inj, forall_eq']
      constructor
      · intro hsame
        obtain ⟨e, he, -⟩ := (hsame (typeName type)).1 rfl
        exact ⟨List.ne_nil_of_mem he, fun e he => (hsame _).2 ⟨e, he, rfl⟩⟩
      · rintro ⟨hne, hall⟩ n
        obtain ⟨e, he⟩ := List.exists_mem_of_ne_nil _ hne
        constructor
        · rintro rfl
          exact ⟨e, he, hall e he⟩
        · rintro ⟨e, he, rfl⟩
          exact hall e he
  · rw [schemas_of_not_list hlist h]
    simp [hlist]

end

theorem describe_eq (type : Option String) (shape : Option Shape) (subject : Subject) :
    (describe type shape subject = none ∧ ∀ t, type = some t → ¬hasSchema t = true) ∨
      ∃ t, type = some t ∧ hasSchema t = true ∧
        describe type shape subject = ofType t shape subject := by
  cases type with
  | none => exact .inl ⟨rfl, fun t ht => nomatch ht⟩
  | some t =>
    by_cases hschema : hasSchema t = true
    · exact .inr ⟨t, rfl, hschema, if_pos hschema⟩
    · refine .inl ⟨if_neg hschema, ?_⟩
      rintro _ ⟨⟩
      exact hschema

theorem names_describe_eq_nil_iff (type : Option String) (shape : Option Shape)
    (subject : Subject) :
    (describe type shape subject).names = [] ↔
      (describe type shape subject).expression = Option.none ∨
        ∃ d, shape.bind (·.discriminator) = some d ∧ d.mapping = [] := by
  rcases describe_eq type shape subject with ⟨h, -⟩ | ⟨t, -, -, h⟩
  · rw [h]
    exact iff_of_true rfl (.inl rfl)
  · rw [h, names_eq_nil_iff]
    cases shape <;> simp [ofType]

/-- The discriminator of a schema in a document has variants. -/
theorem mapping_ne_nil {root schema : Value} {d : Discriminator}
    (h : (Schema.shapeOf root schema).discriminator = some d) : d.mapping ≠ [] := by
  have hdiscriminator : Schema.discriminator? (Pointer.resolve root schema) = some d := h
  obtain ⟨value, -, h⟩ := Option.bind_eq_some_iff.1 hdiscriminator
  obtain ⟨property, -, h⟩ := Option.bind_eq_some_iff.1 h
  obtain ⟨mapping, -, h⟩ := Option.bind_eq_some_iff.1 h
  dsimp only at h
  split at h
  · cases h
  · next hne =>
    obtain rfl := Option.some.inj h
    simpa using hne

/-- A validator names the schemas that its expression refers to, in the same
order, unless the body is a list with variants. In that case the expression refers
to the schema of the type alone, so the two agree only if every variant has that
schema. A validator names nothing exactly if it has no expression or there are no
variants to tell apart, which never happens to a schema of a document. -/
theorem schemas_iff_names (type : Option String) (shape : Option Shape) (subject : Subject)
    (hcontained : ∀ d, shape.bind (·.discriminator) = some d → Contained d) :
    let v := describe type shape subject
    ((shape.any (·.isArray) = true → shape.bind (·.discriminator) = Option.none) →
        v.schemas = v.names) ∧
      ((∀ n, n ∈ v.schemas ↔ n ∈ v.names) ↔
        ∀ t d, type = some t → hasSchema t = true → shape.any (·.isArray) = true →
          shape.bind (·.discriminator) = some d →
          d.mapping ≠ [] ∧ ∀ e ∈ d.mapping, variantName e.2 = typeName t) ∧
      (v.names = [] ↔ v.expression = Option.none ∨
        ∃ d, shape.bind (·.discriminator) = some d ∧ d.mapping = []) ∧
      ∀ root schema, shape = some (Schema.shapeOf root schema) →
        (v.names = [] ↔ v.expression = Option.none) := by
  intro v
  have hempty := names_describe_eq_nil_iff type shape subject
  refine ⟨fun hplain => ?_, ?_, hempty, ?_⟩
  · rcases describe_eq type shape subject with ⟨h, -⟩ | ⟨t, -, -, h⟩
    · simp only [v, h]
      rfl
    · simp only [v, h]
      by_cases hlist : shape.any (·.isArray) = true
      · rw [schemas_of_list hlist, names_of_no_discriminator (hplain hlist)]
      · exact schemas_of_not_list hlist hcontained
  · rcases describe_eq type shape subject with ⟨h, hnone⟩ | ⟨t, rfl, hschema, h⟩
    · simp only [v, h]
      refine iff_of_true (fun n => Iff.rfl) fun t d ht hschema => ?_
      exact absurd hschema (hnone t ht)
    · simp only [v, h]
      rw [schemas_iff_names_ofType hcontained]
      constructor
      · rintro hall _ d ⟨⟩ - hlist hd
        exact hall hlist d hd
      · intro hall hlist d hd
        exact hall t d rfl hschema hlist hd
  · rintro root schema rfl
    rw [hempty]
    constructor
    · rintro (hnone | ⟨d, hd, hmapping⟩)
      · exact hnone
      · exact absurd hmapping (mapping_ne_nil hd)
    · exact .inl

/-- The two variants of a pet. -/
def pets : Discriminator := ⟨"type", [("cat", "#/schemas/Cat"), ("dog", "#/schemas/Dog")]⟩

theorem schemas_iff_names_pets :
    (describe (some "PetDto") (some ⟨false, some pets⟩) .response).schemas =
      (describe (some "PetDto") (some ⟨false, some pets⟩) .response).names ∧
    (describe (some "PetDto") (some ⟨false, some pets⟩) .response).names ≠ [] := by
  have hpets : Contained pets := contained_of_plain (by decide) (by decide) (by decide)
  have hall := schemas_iff_names (some "PetDto") (some ⟨false, some pets⟩) .response
    fun d hd => Option.some.inj hd ▸ hpets
  refine ⟨hall.1 nofun, fun hnil => ?_⟩
  rcases hall.2.2.1.1 hnil with hnone | ⟨d, hd, hmapping⟩
  · exact absurd hnone (by decide +kernel)
  · obtain rfl := Option.some.inj hd
    exact absurd hmapping (by decide)

/-- A variant whose value ends its quotes and goes on with code. -/
def brokenOut : Discriminator :=
  ⟨"type", [("cat\" \x7d, () => foxDtoSchema).with(\x7b type: \"fox", "#/schemas/Cat")]⟩

/-- The validator of a list of pets names the schemas of cats and dogs, but its
expression refers to the schema of pets. Without variants an expression has no
schemas to name, and a value that ends its quotes can refer to any schema. -/
theorem schemas_ne_names :
    describe (some "PetDto[]") (some ⟨true, some pets⟩) .response =
        ⟨["catDtoSchema", "dogDtoSchema"], some "z.array(petDtoSchema)"⟩ ∧
      (describe (some "PetDto[]") (some ⟨true, some pets⟩) .response).schemas = ["petDtoSchema"] ∧
      describe (some "PetDto") (some ⟨false, some ⟨"type", []⟩⟩) .response =
        ⟨[], some "match(response)..otherwise(()=>null)"⟩ ∧
      (describe (some "PetDto") (some ⟨false, some brokenOut⟩) .response).names =
        ["catDtoSchema"] ∧
      (describe (some "PetDto") (some ⟨false, some brokenOut⟩) .response).schemas =
        ["foxDtoSchema", "catDtoSchema"] := by
  decide +kernel

end ClientRoutes.Validator
