import ClientRoutes.Call
import ClientRoutes.Proofs.Description.Shape
import ClientRoutes.Proofs.Description.Walk
import ClientRoutes.Proofs.Text.Edit

/-
  The responses of an operation.

  A route gets the responses of its operation one by one, and a request function takes
  two things from them: the type of what it answers, and the schema that checks the
  answer. Each is settled by a rule of its own, the type by the first success that
  brings one and the schema by the first success. Both rules pick the same response.

  What is proved:
    1. `jsonMedia?_eq_some_iff`, `responseSchema?_eq_iff` — the schema of a response.
    2. `success?_eq_some_iff` — the first response of an operation that is a success.
    3. `type_route`, `shape_route` — type and shape both come from it.
    4. `response_ofValue` — so the two go together in every route of a description.
-/

namespace ClientRoutes

/-- An item of a list with a property that no item before it has. -/
def IsFirst {α : Type} (p : α → Prop) (l : List α) (a : α) : Prop :=
  p a ∧ ∃ before after, l = before ++ a :: after ∧ ∀ b ∈ before, ¬p b

theorem find?_eq_some_iff_isFirst {α : Type} {test : α → Bool} {p : α → Prop}
    (h : ∀ a, test a = true ↔ p a) {l : List α} {a : α} :
    l.find? test = some a ↔ IsFirst p l a := by
  simp only [List.find?_eq_some_iff_append, IsFirst, ← h, Bool.not_eq_true, Bool.not_eq_true']

/-- Nothing is first in a list that is missing. -/
theorem isFirst_getD_iff {α : Type} {p : α → Prop} {list : Option (List α)} {a : α} :
    IsFirst p (list.getD []) a ↔ ∃ l, list = some l ∧ IsFirst p l a := by
  cases list <;> simp [IsFirst]

namespace Operation

open Route (Addition Succeeds)

/-! ## The schema of a response -/

/-- An entry of a content map for JSON itself. -/
def NamesJson (entry : Value × Value) : Prop := entry.1.text? = some "application/json"

/-- An entry of a content map for JSON of some kind. -/
def MentionsJson (entry : Value × Value) : Prop :=
  ∃ name, entry.1.text? = some name ∧ "json".toList <:+: name.toList

/-- What a content map has for JSON: the entry for JSON itself, or without one the first
for JSON of some kind. -/
def IsJsonMedia (content media : Value) : Prop :=
  ∃ entries key, content.entries? = some entries ∧
    (IsFirst NamesJson entries (key, media) ∨
      (∀ e ∈ entries, ¬NamesJson e) ∧ IsFirst MentionsJson entries (key, media))

/-- The content of a response has a schema for JSON. -/
def HasJsonSchema (response schema : Value) : Prop :=
  ∃ content media, response.get? "content" = some content ∧ IsJsonMedia content media ∧
    media.get? "schema" = some schema

/-- The schema of a response, if any: that for JSON, or without one that of the response
itself. -/
def IsSchema (response : Value) (schema : Option Value) : Prop :=
  (∃ s, HasJsonSchema response s ∧ schema = some s) ∨
    (∀ s, ¬HasJsonSchema response s) ∧ schema = response.get? "schema"

theorem keyIs_json_iff (e : Value × Value) :
    keyIs (· == "application/json") e = true ↔ NamesJson e := by
  simp only [keyIs, NamesJson, Option.any_eq_true, beq_iff_eq, exists_eq_right]

theorem keyIs_contains_iff (e : Value × Value) :
    keyIs (Text.contains "json") e = true ↔ MentionsJson e := by
  simp only [keyIs, MentionsJson, Option.any_eq_true, Text.contains,
    Text.containsChars_eq_true_iff]

theorem jsonEntry?_eq_some_iff {entries : List (Value × Value)} {e : Value × Value} :
    (entries.find? (keyIs (· == "application/json")) <|>
        entries.find? (keyIs (Text.contains "json"))) = some e ↔
      IsFirst NamesJson entries e ∨
        (∀ f ∈ entries, ¬NamesJson f) ∧ IsFirst MentionsJson entries e := by
  simp only [← find?_eq_some_iff_isFirst keyIs_json_iff,
    ← find?_eq_some_iff_isFirst keyIs_contains_iff, ← keyIs_json_iff, ← List.find?_eq_none]
  cases entries.find? (keyIs (· == "application/json")) <;> simp

theorem jsonMedia?_eq_some_iff {content media : Value} :
    jsonMedia? content = some media ↔ IsJsonMedia content media := by
  unfold jsonMedia? IsJsonMedia
  constructor
  · intro h
    obtain ⟨entries, hentries, h⟩ := Option.bind_eq_some_iff.1 h
    obtain ⟨⟨key, value⟩, hentry, h⟩ := Option.bind_eq_some_iff.1 h
    obtain rfl := Option.some.inj h
    exact ⟨entries, key, hentries, jsonEntry?_eq_some_iff.1 hentry⟩
  · rintro ⟨entries, key, hentries, hentry⟩
    rw [hentries, Option.bind_eq_bind, Option.bind_some, jsonEntry?_eq_some_iff.2 hentry]
    rfl

theorem responseSchema?_eq_iff {response : Value} {schema : Option Value} :
    responseSchema? response = schema ↔ IsSchema response schema := by
  have hjson : ∀ s, HasJsonSchema response s ↔
      ((response.get? "content").bind jsonMedia?).bind (·.get? "schema") = some s := by
    intro s
    simp only [HasJsonSchema, Option.bind_eq_some_iff, ← jsonMedia?_eq_some_iff]
    constructor
    · rintro ⟨content, media, hcontent, hmedia, hs⟩
      exact ⟨media, ⟨content, hcontent, hmedia⟩, hs⟩
    · rintro ⟨media, ⟨content, hcontent, hmedia⟩, hs⟩
      exact ⟨content, media, hcontent, hmedia, hs⟩
  simp only [IsSchema, hjson, responseSchema?]
  cases ((response.get? "content").bind jsonMedia?).bind (·.get? "schema") with
  | none => simp [eq_comm]
  | some s => simp [eq_comm]

/-! ## The first success -/

/-- An entry of the responses whose status begins with a two. -/
def IsSuccess (entry : Value × Value) : Prop :=
  ∃ status, entry.1.scalarText? = some status ∧ Succeeds status

/-- The first response of an operation that is a success. -/
def IsFirstSuccess (operation response : Value) : Prop :=
  ∃ responses entries key, operation.get? "responses" = some responses ∧
    responses.entries? = some entries ∧ IsFirst IsSuccess entries (key, response)

/-- The first response that is a success, as it stands in the list of responses. -/
def success? (operation : Value) : Option (String × Value) :=
  (responses operation).find? fun e => decide (Succeeds e.1)

/-- A status is read off its key before the first success is looked for. -/
theorem success?_eq (operation : Value) :
    (success? operation).map (·.2) =
      ((((operation.get? "responses").bind Value.entries?).getD []).find? fun e =>
        e.1.scalarText?.any fun status => decide (Succeeds status)).map (·.2) := by
  have hany : (fun e : Value × Value => (e.1.scalarText?.map (·, e.2)).any fun f =>
      decide (Succeeds f.1)) = fun e =>
        e.1.scalarText?.any fun status => decide (Succeeds status) := by
    funext e
    cases e.1.scalarText? <;> rfl
  unfold success? responses
  rw [List.find?_filterMap, hany]
  cases hfind : List.find? _ _ with
  | none => rfl
  | some e =>
    have hsome := List.find?_some hfind
    obtain ⟨status, hstatus, -⟩ := (Option.any_eq_true _ _).1 hsome
    simp [hstatus]

theorem success?_eq_some_iff {operation response : Value} :
    (success? operation).map (·.2) = some response ↔ IsFirstSuccess operation response := by
  have htest : ∀ e : Value × Value,
      (e.1.scalarText?.any fun status => decide (Succeeds status)) = true ↔ IsSuccess e := by
    intro e
    simp only [IsSuccess, Option.any_eq_true, decide_eq_true_iff]
  simp only [success?_eq, Option.map_eq_some_iff, find?_eq_some_iff_isFirst htest,
    isFirst_getD_iff, Option.bind_eq_some_iff, IsFirstSuccess]
  constructor
  · rintro ⟨⟨key, value⟩, ⟨entries, ⟨responses, hresponses, hentries⟩, hfirst⟩, rfl⟩
    exact ⟨responses, entries, key, hresponses, hentries, hfirst⟩
  · rintro ⟨responses, entries, key, hresponses, hentries, hfirst⟩
    exact ⟨(key, response), ⟨entries, ⟨responses, hresponses, hentries⟩, hfirst⟩, rfl⟩

/-! ## Its type and its shape -/

/-- The type of a response with a schema, or without one. -/
def responseType (schema : Option Value) : String := (schema.map Schema.typeName).getD "void"

/-- What an entry of the responses adds to a route. -/
def addition (root : Value) (e : String × Value) : Addition :=
  let schema := responseSchema? (Pointer.resolve root e.2)
  .response e.1 (some (responseType schema)) (schema.map (Schema.shapeOf root))

theorem addResponse_eq_add (root : Value) (r : Route) (e : String × Value) :
    addResponse root r e.1 e.2 = r.add (addition root e) := by
  unfold addResponse addition
  cases responseSchema? (Pointer.resolve root e.2) <;> rfl

theorem route_eq (root : Value) (method : Method) (path : String) (operation : Value)
    (shared : Option Value) :
    route root method path operation shared =
      ((responses operation).map (addition root)).foldl Route.add
        (requestRoute root method path operation shared) := by
  rw [List.foldl_map]
  simp only [← addResponse_eq_add]
  rfl

theorem responses_requestRoute (root : Value) (method : Method) (path : String)
    (operation : Value) (shared : Option Value) :
    (requestRoute root method path operation shared).responses = .empty :=
  field_requestRoute Route.responses (fun _ _ => rfl) (fun _ _ _ _ => rfl) root method path
    operation shared

/-- The type that the additions give is that of the first success. -/
theorem findSome?_addition (root : Value) (es : List (String × Value)) :
    (es.map (addition root)).findSome? Addition.successType? =
      (es.find? fun e => decide (Succeeds e.1)).map fun e =>
        responseType (responseSchema? (Pointer.resolve root e.2)) := by
  induction es with
  | nil => rfl
  | cons e es ih =>
    rw [List.map_cons, List.findSome?_cons, List.find?_cons, ih]
    by_cases he : Succeeds e.1 <;> simp [addition, Addition.successType?, he]

theorem find?_addition (root : Value) (es : List (String × Value)) :
    ((es.map (addition root)).filterMap Addition.variant?).find? (·.isSuccess) =
      (es.find? fun e => decide (Succeeds e.1)).map fun e =>
        ⟨e.1, decide (Succeeds e.1),
          (responseSchema? (Pointer.resolve root e.2)).map (Schema.shapeOf root)⟩ := by
  have hvariant : Addition.variant? ∘ addition root = some ∘ fun e =>
      ⟨e.1, decide (Succeeds e.1),
        (responseSchema? (Pointer.resolve root e.2)).map (Schema.shapeOf root)⟩ := rfl
  rw [List.filterMap_map, hvariant, List.filterMap_eq_map, List.find?_map]
  rfl

/-- The type of a route is that of the first response that is a success. -/
theorem type_route (root : Value) (method : Method) (path : String) (operation : Value)
    (shared : Option Value) :
    (route root method path operation shared).responses.type =
      (success? operation).map fun e =>
        responseType (responseSchema? (Pointer.resolve root e.2)) := by
  rw [route_eq, Route.type_foldl, responses_requestRoute, findSome?_addition]
  exact Option.none_or

/-- The shape for which the answer is checked is that of the same response. -/
theorem shape_route (root : Value) (method : Method) (path : String) (operation : Value)
    (shared : Option Value) :
    (route root method path operation shared).responses.success?.bind (·.shape) =
      (success? operation).bind fun e =>
        (responseSchema? (Pointer.resolve root e.2)).map (Schema.shapeOf root) := by
  rw [Responses.success?, route_eq, Route.variants_foldl, responses_requestRoute,
    show Responses.empty.variants = [] from rfl, List.nil_append, find?_addition, Option.bind_map]
  rfl

/-- The response side of a request function whose answer has a schema, or has none. -/
def typedResponse (root : Value) (schema : Option Value) : Response :=
  ⟨some (responseType schema),
    .describe (some (responseType schema)) (schema.map (Schema.shapeOf root)) .response⟩

theorem response_route (root : Value) (method : Method) (path : String) (operation : Value)
    (shared : Option Value) :
    (Call.ofRoute (route root method path operation shared)).response =
      match success? operation with
      | some e => typedResponse root (responseSchema? (Pointer.resolve root e.2))
      | none => ⟨none, .none⟩ := by
  have hresponse : ∀ r : Route, (Call.ofRoute r).response =
      ⟨r.responses.type,
        .describe r.responses.type (r.responses.success?.bind (·.shape)) .response⟩ :=
    fun _ => rfl
  rw [hresponse, type_route, shape_route]
  cases success? operation <;> rfl

end Operation

namespace Description

open Operation

/-- In every route of a description, the type of the answer and the schema that checks it
come from one response: the first whose status begins with a two, one reference followed.
Both go by its schema, which is the one for JSON or else its own; without a schema the
type is `void`. If no status begins with a two there is neither a type nor a schema. -/
theorem response_ofValue {root : Value} {d : Description} (hd : ofValue root = .ok d) :
    ∃ spots : List Spot,
      spots.Pairwise Spot.Before ∧ (∀ s, s ∈ spots ↔ s.In root) ∧
        d.routes = spots.map (Spot.route root) ∧
        ∀ s ∈ spots,
          (∀ response, IsFirstSuccess s.operation response →
            ∃ target schema, Pointer.StandsFor root response target ∧ IsSchema target schema ∧
              (Call.ofRoute (s.route root)).response = typedResponse root schema) ∧
          ((∀ response, ¬IsFirstSuccess s.operation response) →
            (Call.ofRoute (s.route root)).response = ⟨none, .none⟩) := by
  refine ⟨spots root (pathEntries root), pairwise_spots root _, fun s => mem_spots_iff, ?_, ?_⟩
  · rw [map_route_spots, routes_eq hd]
  · intro s _
    have hresponse := response_route root s.method s.path s.operation s.shared
    simp only [← success?_eq_some_iff]
    constructor
    · intro response hfirst
      obtain ⟨e, he, rfl⟩ := Option.map_eq_some_iff.1 hfirst
      rw [he] at hresponse
      exact ⟨Pointer.resolve root e.2, responseSchema? (Pointer.resolve root e.2),
        Pointer.resolve_eq_iff.1 rfl, responseSchema?_eq_iff.1 rfl, hresponse⟩
    · intro hnone
      cases hsuccess : success? s.operation with
      | some e => exact absurd (by rw [hsuccess]; rfl) (hnone e.2)
      | none => rwa [hsuccess] at hresponse

/-- An operation with three responses: one for all that fails, one for whatever status
begins with a two, and a success with another type. -/
def listPets : Value := .mapping [(.text "responses", .mapping [
  (.text "default", .mapping [(.text "schema", Schema.referenceTo "Problem")]),
  (.text "2XX", .mapping [(.text "$ref", .text "#/components/responses/Pets")]),
  (.number (.integer 201), .mapping [(.text "schema", Schema.referenceTo "Pet")])])]

/-- A document in which that operation stands beside one without responses; the response
that it refers to has another content in front of the one for JSON. -/
def pets : Value := .mapping [
  (.text "openapi", .text "3.0.0"),
  (.text "paths", .mapping [
    (.text "/pets", .mapping [(.text "get", listPets), (.text "delete", .null)])]),
  (.text "components", .mapping [
    (.text "responses", .mapping [(.text "Pets", .mapping [(.text "content", .mapping [
      (.text "application/problem+json",
        .mapping [(.text "schema", Schema.referenceTo "Problem")]),
      (.text "application/json",
        .mapping [(.text "schema", Schema.referenceTo "Pets")])])])]),
    (.text "schemas", .mapping [(.text "Pets", .mapping [(.text "type", .text "array")])])])]

theorem response_ofValue_pets :
    ∃ d, ofValue pets = .ok d ∧ ∃ spots : List Spot,
      d.routes = spots.map (Spot.route pets) ∧
        ⟨0, 0, "/pets", .get, listPets, none⟩ ∈ spots ∧
        (Call.ofRoute (Operation.route pets .get "/pets" listPets none)).response =
          ⟨some "PetsDto", ⟨["petsDtoSchema"], some "z.array(petsDtoSchema)"⟩⟩ ∧
        ⟨0, 1, "/pets", .delete, .null, none⟩ ∈ spots ∧
        (Call.ofRoute (Operation.route pets .delete "/pets" .null none)).response =
          ⟨none, .none⟩ := by
  have hd : ofValue pets = .ok ⟨none, "3.0.0", routesOf pets (pathEntries pets)⟩ := rfl
  obtain ⟨spots, -, hmem, hroutes, hspots⟩ := response_ofValue hd
  have hget : (⟨0, 0, "/pets", .get, listPets, none⟩ : Spot) ∈ spots :=
    (hmem _).2 (mem_spots_iff.1 (.head _))
  have hdelete : (⟨0, 1, "/pets", .delete, .null, none⟩ : Spot) ∈ spots :=
    (hmem _).2 (mem_spots_iff.1 (.tail _ (.head _)))
  refine ⟨_, hd, spots, hroutes, hget, ?_, hdelete, ?_⟩
  · obtain ⟨target, schema, htarget, hschema, hresponse⟩ :=
      (hspots _ hget).1 _ (success?_eq_some_iff.1 rfl)
    obtain rfl := Pointer.resolve_eq_iff.2 htarget
    obtain rfl := responseSchema?_eq_iff.2 hschema
    have htype : responseType (some (Schema.referenceTo "Pets")) = "PetsDto" :=
      (Schema.typeName_reference rfl).trans (by decide +kernel)
    have hpets : typedResponse pets (some (Schema.referenceTo "Pets")) =
        ⟨some "PetsDto", ⟨["petsDtoSchema"], some "z.array(petsDtoSchema)"⟩⟩ := by
      rw [typedResponse, htype]
      decide +kernel
    exact hresponse.trans hpets
  · refine (hspots _ hdelete).2 fun response => ?_
    rw [← success?_eq_some_iff]
    exact nofun

end Description

end ClientRoutes
