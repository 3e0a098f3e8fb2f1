import ClientRoutes.Call
import ClientRoutes.Proofs.Description.Parameters

/-
  The entries of a request function, as data and as they are written.

  An argument has a name, a mark that says whether it is optional, and a type;
  its signature is these three in a row. `Entry` keeps them apart.

  What is proved:
    1. `arguments_ofRoute`, `signatures_ofRoute` — the names and signatures of a
       call are those of its entries, in one order.
    2. `isOptional_text`, `isRequired_text` — the mark can be read off a signature
       once the name is known.
    3. `requiredFirst_iff` — in a route of a description a required entry stands
       behind an optional one exactly if an optional group of query parameters
       meets a required payload.
    4. `requiredFirst_fails` — there is a description with such a route.
-/

namespace ClientRoutes.Call

/-- An argument of a request function. -/
structure Entry where
  name : String
  optional : Bool
  /-- What follows the colon. -/
  type : String
  deriving DecidableEq, Repr

/-- How an argument is written. -/
def Entry.text (e : Entry) : String :=
  e.name ++ (if e.optional then "?:" else ":") ++ e.type

/-- The arguments that a caller of a route has to think about: the parameters in
the path, the group of query parameters, and the payload. -/
def requiredEntries (route : Route) : List Entry :=
  (route.pathParameters.map fun p => ⟨p.name, p.optional, p.type⟩) ++
    (route.query.map fun g =>
      ⟨"params", g.optional, " " ++ (groupType route route.query "QueryParams").dto.getD ""⟩).toList ++
    (route.payload.map fun p => ⟨"payload", p.optional, " " ++ p.type⟩).toList

/-- The arguments for the client and the options. -/
def trailingEntries (route : Route) : List Entry :=
  [⟨"kyInstance", true, " " ++ clientType⟩,
    ⟨"options", true, " " ++ optionsType (groupType route route.headers "Headers").dto⟩]

/-- All arguments of the request function of a route. -/
def entries (route : Route) : List Entry := requiredEntries route ++ trailingEntries route

/-! ## What a call holds -/

theorem spacedSignature_eq (name : String) (optional : Bool) (type : String) :
    spacedSignature name optional type = (⟨name, optional, " " ++ type⟩ : Entry).text := by
  rw [← String.toList_inj]
  cases optional <;> simp [spacedSignature, Entry.text]

theorem requiredArguments_ofRoute (route : Route) :
    (ofRoute route).request.arguments.required = (requiredEntries route).map Entry.name := by
  have h : (ofRoute route).request.arguments.required =
      route.pathParameters.map (·.name) ++ Step.groupArguments route := rfl
  rw [h]
  cases hq : route.query <;> cases hp : route.payload <;>
    simp [Step.groupArguments, requiredEntries, hq, hp, Function.comp_def]

theorem requiredSignatures_ofRoute (route : Route) :
    (ofRoute route).request.signatures.required = (requiredEntries route).map Entry.text := by
  have h : (ofRoute route).request.signatures.required =
      (route.pathParameters.map fun p => signature p.name p.optional p.type) ++
        ((route.query.map fun g => spacedSignature "params" g.optional
          ((groupType route route.query "QueryParams").dto.getD "")).toList ++
        (route.payload.map fun p => spacedSignature "payload" p.optional
          ((route.payload.map (·.type)).getD "")).toList) := rfl
  rw [h]
  cases hq : route.query <;> cases hp : route.payload <;>
    simp [spacedSignature_eq, requiredEntries, hq, hp, Function.comp_def, signature, Entry.text]

theorem arguments_ofRoute (route : Route) :
    (ofRoute route).request.arguments.all = (entries route).map Entry.name := by
  have h : (ofRoute route).request.arguments.all =
      (ofRoute route).request.arguments.required ++ Step.trailingArguments := rfl
  rw [h, requiredArguments_ofRoute, entries, List.map_append]
  rfl

theorem signatures_ofRoute (route : Route) :
    (ofRoute route).request.signatures.all = (entries route).map Entry.text := by
  have h : (ofRoute route).request.signatures.all =
      (ofRoute route).request.signatures.required ++
        ["kyInstance?: " ++ clientType,
          "options?: " ++ optionsType (groupType route route.headers "Headers").dto] := rfl
  rw [h, requiredSignatures_ofRoute, entries, List.map_append]
  congr 1

/-! ## Reading the mark -/

/-- Whether a signature writes the argument of a name as optional. -/
def IsOptional (name signature : String) : Prop :=
  (name ++ "?:").toList <+: signature.toList

/-- Whether a signature writes the argument of a name as required. -/
def IsRequired (name signature : String) : Prop :=
  (name ++ ":").toList <+: signature.toList

theorem isOptional_text (e : Entry) : IsOptional e.name e.text ↔ e.optional = true := by
  unfold IsOptional Entry.text
  rw [String.append_assoc, String.toList_append, String.toList_append,
    List.prefix_append_right_inj]
  cases e.optional <;> simp [String.toList_append]

theorem isRequired_text (e : Entry) : IsRequired e.name e.text ↔ e.optional = false := by
  unfold IsRequired Entry.text
  rw [String.append_assoc, String.toList_append, String.toList_append,
    List.prefix_append_right_inj]
  cases e.optional <;> simp [String.toList_append]

/-! ## The order of required and optional arguments -/

/-- No required argument stands behind an optional one. -/
def RequiredFirst (names signatures : List String) : Prop :=
  (names.zip signatures).Pairwise fun a b => IsOptional a.1 a.2 → ¬IsRequired b.1 b.2

theorem requiredFirst_map_iff (es : List Entry) :
    RequiredFirst (es.map Entry.name) (es.map Entry.text) ↔
      es.Pairwise fun a b => a.optional = true → b.optional = true := by
  rw [RequiredFirst, List.zip_map', List.pairwise_map]
  simp [isOptional_text, isRequired_text]

/-- A route whose query parameters are all optional and whose payload is not. -/
def OptionalThenRequired (route : Route) : Prop :=
  ∃ g p, route.query = some g ∧ route.payload = some p ∧ g.optional = true ∧ p.optional = false

theorem pairwise_requiredEntries_iff {route : Route}
    (h : ∀ p ∈ route.pathParameters, p.optional = false) :
    ((requiredEntries route).Pairwise fun a b => a.optional = true → b.optional = true) ↔
      ¬OptionalThenRequired route := by
  have hpath : (route.pathParameters.map fun p => (⟨p.name, p.optional, p.type⟩ : Entry)).Pairwise
      fun a b => a.optional = true → b.optional = true := by
    rw [List.pairwise_map]
    exact List.pairwise_of_forall_mem_list fun p hp q _ ho => absurd ho (by simp [h p hp])
  -- Entries in the path are never optional, so only query and payload can clash.
  cases hq : route.query <;> cases hp : route.payload <;>
    simp_all [requiredEntries, OptionalThenRequired, List.pairwise_append]

theorem pairwise_entries_iff {route : Route}
    (h : ∀ p ∈ route.pathParameters, p.optional = false) :
    ((entries route).Pairwise fun a b => a.optional = true → b.optional = true) ↔
      ¬OptionalThenRequired route := by
  rw [← pairwise_requiredEntries_iff h, entries, List.pairwise_append]
  simp [trailingEntries]

/-- In the call of a route of a description every signature marks its argument as
optional or as required, and a required one stands behind an optional one exactly
if all query parameters are optional and the payload is not. -/
theorem requiredFirst_iff {root : Value} {d : Description} {r : Route}
    (hd : Description.ofValue root = .ok d) (hr : r ∈ d.routes) :
    let q := (ofRoute r).request
    q.arguments.all.length = q.signatures.all.length ∧
      (∀ e ∈ q.arguments.all.zip q.signatures.all, IsOptional e.1 e.2 ↔ ¬IsRequired e.1 e.2) ∧
      (RequiredFirst q.arguments.all q.signatures.all ↔ ¬OptionalThenRequired r) ∧
      (RequiredFirst q.arguments.required q.signatures.required ↔ ¬OptionalThenRequired r) := by
  have hpath : ∀ p ∈ r.pathParameters, p.optional = false :=
    fun p hp => Description.pathParameter_required hd hr hp
  intro q
  simp only [q, arguments_ofRoute, signatures_ofRoute, requiredArguments_ofRoute,
    requiredSignatures_ofRoute, requiredFirst_map_iff]
  refine ⟨by simp, ?_, pairwise_entries_iff hpath, pairwise_requiredEntries_iff hpath⟩
  intro e he
  rw [List.zip_map'] at he
  obtain ⟨entry, -, rfl⟩ := List.mem_map.1 he
  simp [isOptional_text, isRequired_text]

/-- An operation with an optional query parameter and a required body. -/
def draftOperation : Value := .mapping [
  (.text "parameters", .list [.mapping [(.text "name", .text "draft"), (.text "in", .text "query")]]),
  (.text "requestBody", .mapping [
    (.text "required", .bool true),
    (.text "content", .mapping [(.text "application/json", .mapping [])])])]

def draftDocument : Value := .mapping [
  (.text "openapi", .text "3.0.0"),
  (.text "paths", .mapping [(.text "/items", .mapping [(.text "post", draftOperation)])])]

def draftRoute : Route := Operation.route draftDocument .post "/items" draftOperation none

theorem requiredFirst_iff_draft :
    Description.ofValue draftDocument = .ok ⟨none, "3.0.0", [draftRoute]⟩ ∧
      (RequiredFirst (ofRoute draftRoute).request.arguments.all
        (ofRoute draftRoute).request.signatures.all ↔ ¬OptionalThenRequired draftRoute) := by
  have hd : Description.ofValue draftDocument = .ok ⟨none, "3.0.0", [draftRoute]⟩ := rfl
  exact ⟨hd, (requiredFirst_iff hd (List.mem_singleton_self draftRoute)).2.2.1⟩

/-- The payload of this route is required and stands behind its optional query
parameters. -/
theorem requiredFirst_fails :
    Description.ofValue draftDocument = .ok ⟨none, "3.0.0", [draftRoute]⟩ ∧
      (ofRoute draftRoute).request.signatures.all =
        ["params?: PostItemsQueryParams", "payload: any", "kyInstance?: KyInstance",
          "options?: Options"] ∧
      ¬RequiredFirst (ofRoute draftRoute).request.arguments.all
        (ofRoute draftRoute).request.signatures.all := by
  refine ⟨rfl, by decide +kernel, ?_⟩
  rw [arguments_ofRoute, signatures_ofRoute, requiredFirst_map_iff]
  decide +kernel

end ClientRoutes.Call
