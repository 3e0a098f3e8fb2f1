import ClientRoutes.Number.Binary64
import ClientRoutes.Route.Name

/-
  Routes: the operations of an API description.

  A route is built up from its method and path by adding parameters, a payload,
  responses, an operation id and extensions. Query and header parameters are
  taken together as groups, and a group is optional as long as all its
  parameters are. The type of the response is the first one that a success
  response brings.
-/

namespace ClientRoutes

/-- Where a parameter is carried in a request. -/
inductive Place where
  | path
  | query
  | header
  deriving DecidableEq, Repr

/-- A parameter of a route. -/
structure Parameter where
  name : String
  type : String
  optional : Bool
  place : Place
  deriving DecidableEq, Repr

/-- Parameters that are taken as one argument. -/
structure Group where
  /-- Whether all of them are optional. -/
  optional : Bool
  deriving DecidableEq, Repr

/-- The body argument of a route. -/
structure Payload where
  type : String
  optional : Bool
  deriving DecidableEq, Repr

/-- The property that tells the variants of a schema apart, and the reference
that each of its values stands for. -/
structure Discriminator where
  property : String
  mapping : List (String × String)
  deriving DecidableEq, Repr

/-- The parts of a schema that shape its validation. -/
structure Shape where
  isArray : Bool
  discriminator : Option Discriminator
  deriving DecidableEq, Repr, Inhabited

/-- The body of a request. -/
structure Body where
  shape : Option Shape
  deriving DecidableEq, Repr

/-- One response of a route. -/
structure Variant where
  status : String
  isSuccess : Bool
  shape : Option Shape
  deriving DecidableEq, Repr

/-- The responses of a route. -/
structure Responses where
  type : Option String
  variants : List Variant
  deriving DecidableEq, Repr

/-- A duration as a document gives it. -/
inductive DurationLiteral where
  | number (value : Binary64)
  | text (value : String)
  deriving DecidableEq, Repr

/-- The vendor extensions of a route. -/
structure Extensions where
  /-- The name under which other routes refer to the cached answer. -/
  queryKey : Option String
  /-- What is to be fetched again after the request. -/
  invalidates : List String
  staleTime : Option DurationLiteral
  gcTime : Option DurationLiteral
  deriving DecidableEq, Repr

/-- An operation of an API description. -/
structure Route where
  method : Method
  path : String
  module : String
  name : RouteName
  parameters : List Parameter
  query : Option Group
  headers : Option Group
  payload : Option Payload
  body : Option Body
  responses : Responses
  extensions : Extensions
  deriving DecidableEq, Repr

namespace Responses

/-- No responses. -/
def empty : Responses := ⟨none, []⟩

/-- The first success response. -/
def success? (r : Responses) : Option Variant := r.variants.find? (·.isSuccess)

end Responses

namespace Extensions

/-- No extensions. -/
def empty : Extensions := ⟨none, [], none, none⟩

end Extensions

namespace Group

/-- A group after one more parameter. -/
def extend (g : Option Group) (p : Parameter) : Option Group :=
  some ⟨(g.all (·.optional)) && p.optional⟩

end Group

namespace Route

/-- A route without parameters, payload, responses and extensions. -/
def new (method : Method) (path module : String) : Route where
  method := method
  path := path
  module := module
  name := RouteName.derive method path none
  parameters := []
  query := none
  headers := none
  payload := none
  body := none
  responses := Responses.empty
  extensions := Extensions.empty

/-- Adds a parameter, also to the group it belongs to. -/
def addParameter (r : Route) (p : Parameter) : Route :=
  { r with
    parameters := r.parameters ++ [p]
    query := if p.place = .query then Group.extend r.query p else r.query
    headers := if p.place = .header then Group.extend r.headers p else r.headers }

/-- Gives the route a payload. -/
def setPayload (r : Route) (type : String) (optional : Bool) (shape : Option Shape) : Route :=
  { r with payload := some ⟨type, optional⟩, body := some ⟨shape⟩ }

/-- Whether a status says that the request succeeded. -/
def isSuccessStatus (status : String) : Bool := status.toList.head? == some '2'

/-- Adds a response. -/
def addResponse (r : Route) (status : String) (type : Option String) (shape : Option Shape) :
    Route :=
  let success := isSuccessStatus status
  { r with responses :=
    { type := if success then r.responses.type <|> type else r.responses.type
      variants := r.responses.variants ++ [⟨status, success, shape⟩] } }

/-- Names the route after an operation id. -/
def setOperationId (r : Route) (id : Option String) : Route :=
  { r with name := RouteName.derive r.method r.path id }

/-- Gives the route its extensions. -/
def setExtensions (r : Route) (e : Extensions) : Route := { r with extensions := e }

/-- The parameters that are carried in the path. -/
def pathParameters (r : Route) : List Parameter := r.parameters.filter (·.place = .path)

end Route

end ClientRoutes
