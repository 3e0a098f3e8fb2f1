import ClientRoutes.Description.Schema

/-
  Operations of an API description.

  An operation becomes a route. Its parameters are those of its path and its
  own, a later one replacing an earlier one of the same name and place; then
  every placeholder of the path that has no parameter gets one of type `string`.
  The payload comes from a `body` parameter or, before that, from the request
  body, and every response is added in document order.
-/

namespace ClientRoutes.Operation

/-! ## Parameters -/

/-- The parameters in a list, references followed. -/
def listed (root : Value) (list : Option Value) : List Value :=
  (((list.bind Value.items?).getD []).map (Pointer.resolve root))

/-- Whether two parameters have the same name and place. -/
def samePlace (p q : Value) : Bool :=
  Value.sameOption (p.get? "name") (q.get? "name") && Value.sameOption (p.get? "in") (q.get? "in")

/-- Adds a parameter in place of those of the same name and place. -/
def declare (declared : List Value) (p : Value) : List Value :=
  declared.filter (fun q => !samePlace q p) ++ [p]

/-- The parameters that hold for an operation. -/
def declared (root operation : Value) (shared : Option Value) : List Value :=
  (listed root shared ++ listed root (operation.get? "parameters")).foldl declare []

/-- Whether a parameter or a body says that it is required. -/
def isRequired (v : Value) : Bool := ((v.get? "required").bind Value.bool?).getD false

/-- The place a parameter names. -/
def place? (p : Value) : Option Place :=
  match p.textAt? "in" with
  | some "path" => some .path
  | some "query" => some .query
  | some "header" => some .header
  | _ => none

/-- The parameter of a route. Its type stands under `schema` or beside its name;
one in the path is never optional. -/
def parameter? (p : Value) : Option Parameter := do
  let name ← p.textAt? "name"
  let place ← place? p
  let type := Schema.typeName ((p.get? "schema").getD p)
  return ⟨name, type, !isRequired p && place != .path, place⟩

/-- Adds a parameter for a placeholder that has none. -/
def bind (route : Route) (placeholder : String) : Route :=
  if route.pathParameters.any (·.name == placeholder) then route
  else route.addParameter ⟨placeholder, "string", false, .path⟩

/-! ## Payload -/

/-- The argument for a body, and its shape. -/
structure Content where
  type : String
  optional : Bool
  shape : Option Shape
  deriving DecidableEq, Repr

/-- The content that a schema describes. -/
def Content.ofSchema (root schema : Value) (optional : Bool) : Content :=
  ⟨Schema.typeName schema, optional, some (Schema.shapeOf root schema)⟩

/-- The content of a parameter in the body. -/
def bodyParameter? (root p : Value) : Option Content :=
  if (p.textAt? "name").isSome && p.textAt? "in" == some "body" then
    some (.ofSchema root ((p.get? "schema").getD .null) (!isRequired p))
  else none

/-- Whether a key of a content map is a text with a property. -/
def keyIs (test : String → Bool) (entry : Value × Value) : Bool := entry.1.text?.any test

/-- The JSON entry of a content map: `application/json`, or else the first whose
name contains `json`. -/
def jsonMedia? (content : Value) : Option Value := do
  let entries ← content.entries?
  let entry ← entries.find? (keyIs (· == "application/json")) <|>
    entries.find? (keyIs (Text.contains "json"))
  return entry.2

/-- The content of the first entry of a content map without JSON. -/
def otherContent (optional : Bool) (entry : Value × Value) : Content :=
  let type :=
    if entry.1.text? == some "multipart/form-data" then "FormData"
    else match entry.2.get? "schema" with
      | some schema => Schema.typeName schema
      | none => "any"
  ⟨type, optional, none⟩

/-- The content of a request body. -/
def requestContent? (root body : Value) : Option Content := do
  let content ← body.get? "content"
  let entries ← content.entries?
  let optional := !isRequired body
  match jsonMedia? content with
  | some media => return .ofSchema root ((media.get? "schema").getD .null) optional
  | none => entries.head?.map (otherContent optional)

/-- The content of an operation: that of its request body if it has one, else
that of its last parameter in the body. -/
def content? (root operation : Value) (declared : List Value) : Option Content :=
  match operation.get? "requestBody" with
  | some body => requestContent? root (Pointer.resolve root body)
  | none => (declared.filterMap (bodyParameter? root)).getLast?

/-! ## Responses -/

/-- The schema of a response. -/
def responseSchema? (response : Value) : Option Value :=
  ((response.get? "content").bind jsonMedia?).bind (·.get? "schema") <|> response.get? "schema"

/-- Adds a response to a route. -/
def addResponse (root : Value) (route : Route) (status : String) (response : Value) : Route :=
  match responseSchema? (Pointer.resolve root response) with
  | some schema =>
    route.addResponse status (some (Schema.typeName schema)) (some (Schema.shapeOf root schema))
  | none => route.addResponse status (some "void") none

/-- The responses of an operation, by status. -/
def responses (operation : Value) : List (String × Value) :=
  (((operation.get? "responses").bind Value.entries?).getD []).filterMap fun (status, response) =>
    status.scalarText?.map (·, response)

/-! ## Extensions -/

/-- A duration written as a number or a text. -/
def duration? : Value → Option DurationLiteral
  | .number n => some (.number n.toBinary64)
  | .text s => some (.text s)
  | _ => none

/-- The duration under the first of two keys that is there. -/
def durationAt? (operation : Value) (key other : String) : Option DurationLiteral :=
  (operation.get? key <|> operation.get? other).bind duration?

/-- The entries of a list of invalidations, or its only entry. -/
def invalidations (operation : Value) : List String :=
  match operation.get? "x-invalidate-query-key" with
  | some (.list entries) => entries.filterMap Value.scalarText?
  | some v => v.scalarText?.toList
  | none => []

/-- The extensions of an operation. -/
def extensions (operation : Value) : Extensions where
  queryKey := (operation.get? "x-query-key").bind Value.scalarText?
  invalidates := invalidations operation
  staleTime := durationAt? operation "x-staleTime" "x-stale-time"
  gcTime := durationAt? operation "x-gcTime" "x-gc-time"

/-! ## Routes -/

/-- The first tag of an operation. -/
def tag? (operation : Value) : Option String :=
  ((operation.get? "tags").bind Value.items?).bind fun tags => tags.head?.bind Value.text?

/-- The module of an operation: its first tag, or else what its path names. -/
def module (operation : Value) (path : String) : String :=
  match tag? operation with
  | some tag => Casing.camelCase tag
  | none => ((Template.resource? path).map Casing.camelCase).getD "common"

/-- The route of an operation, with the parameters that its path shares. -/
def route (root : Value) (method : Method) (path : String) (operation : Value)
    (shared : Option Value) : Route :=
  let declared := declared root operation shared
  let route := ((Route.new method path (module operation path)).setOperationId
    (operation.textAt? "operationId")).setExtensions (extensions operation)
  let route := (declared.filterMap parameter?).foldl Route.addParameter route
  let route := (Template.placeholders path).foldl bind route
  let route := match content? root operation declared with
    | some c => route.setPayload c.type c.optional c.shape
    | none => route
  (responses operation).foldl (fun r (status, response) => addResponse root r status response) route

end ClientRoutes.Operation
