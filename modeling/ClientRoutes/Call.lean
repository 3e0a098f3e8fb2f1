import ClientRoutes.Call.Validator

/-
  The request function of a route.

  `Call` holds every name, signature and type of the function. It is filled in
  by fourteen steps. A step reads the route and what earlier steps have written,
  and writes one field; `Step.reads` says which steps it depends on.
-/

namespace ClientRoutes

/-- The type of the client that every request function accepts. -/
def clientType : String := "KyInstance"

/-- The path parameters of a request function. -/
structure PathArguments where
  signatures : List String
  arguments : List String
  deriving DecidableEq, Repr

/-- The type and the schema of a group of parameters. Without a type the schema
name is empty. -/
structure GroupType where
  dto : Option String
  schema : String
  deriving DecidableEq, Repr

/-- The entries a caller has to think about, and those with the client and the
options behind them. -/
structure Entries where
  required : List String
  all : List String
  deriving DecidableEq, Repr

/-- The request side of a request function. -/
structure Request where
  function : String
  path : PathArguments
  query : GroupType
  headers : GroupType
  /-- The type of the payload. -/
  payload : Option String
  /-- The type of the options. -/
  options : String
  signatures : Entries
  arguments : Entries
  validator : Validator
  deriving DecidableEq, Repr

/-- The response side of a request function. -/
structure Response where
  dto : Option String
  validator : Validator
  deriving DecidableEq, Repr

/-- Everything about the request function of a route. -/
structure Call where
  request : Request
  response : Response
  deriving DecidableEq, Repr

namespace Call

/-- The call with nothing filled in. -/
def empty : Call :=
  { request := ⟨"", ⟨[], []⟩, ⟨none, ""⟩, ⟨none, ""⟩, none, "", ⟨[], []⟩, ⟨[], []⟩, .none⟩
    response := ⟨none, .none⟩ }

/-- The signature of a path parameter. -/
def signature (name : String) (optional : Bool) (type : String) : String :=
  name ++ (if optional then "?:" else ":") ++ type

/-- The signature of an argument that stands for several values. -/
def spacedSignature (name : String) (optional : Bool) (type : String) : String :=
  name ++ (if optional then "?: " else ": ") ++ type

/-- The type and schema of a group, named after the route. -/
def groupType (route : Route) (group : Option Group) (kind : String) : GroupType :=
  match group with
  | some _ =>
    let name := route.name.identifier ++ kind
    ⟨some (Casing.pascalCase name), name ++ "Schema"⟩
  | none => ⟨none, ""⟩

/-- The type of the options, which carry the headers if there are any. -/
def optionsType (headers : Option String) : String :=
  match headers with
  | some dto => "Omit<Options, 'headers'> & \x7b headers: " ++ dto ++ " \x7d"
  | none => "Options"

/-- The steps that fill in a call. -/
inductive Step where
  | function
  | pathSignatures
  | pathArguments
  | query
  | headers
  | payload
  | options
  | requiredSignatures
  | allSignatures
  | requiredArguments
  | allArguments
  | responseDto
  | requestValidator
  | responseValidator
  deriving DecidableEq, Repr

namespace Step

/-- All steps, each behind those it depends on. -/
def all : List Step :=
  [.function, .pathSignatures, .pathArguments, .query, .headers, .payload, .options,
    .requiredSignatures, .allSignatures, .requiredArguments, .allArguments, .responseDto,
    .requestValidator, .responseValidator]

/-- The field a step writes. -/
def field : Step → String
  | .function => "function_name"
  | .pathSignatures => "path_params.signatures"
  | .pathArguments => "path_params.arguments"
  | .query => "query"
  | .headers => "headers"
  | .payload => "payload"
  | .options => "options"
  | .requiredSignatures => "parameters.signatures.required"
  | .allSignatures => "parameters.signatures.all"
  | .requiredArguments => "parameters.arguments.required"
  | .allArguments => "parameters.arguments.all"
  | .responseDto => "response.dto_name"
  | .requestValidator => "request.schema"
  | .responseValidator => "response.schema"

/-- The steps whose fields a step reads. -/
def reads : Step → List Step
  | .options => [.headers]
  | .requiredSignatures => [.pathSignatures, .query, .payload]
  | .allSignatures => [.requiredSignatures, .options]
  | .requiredArguments => [.pathArguments]
  | .allArguments => [.requiredArguments]
  | .requestValidator => [.payload]
  | .responseValidator => [.responseDto]
  | _ => []

/-- The signatures of the arguments that stand for a group and for the payload. -/
def groupSignatures (route : Route) (q : Request) : List String :=
  (route.query.map fun g => spacedSignature "params" g.optional (q.query.dto.getD "")).toList ++
    (route.payload.map fun p => spacedSignature "payload" p.optional (q.payload.getD "")).toList

/-- The names of the arguments that stand for a group and for the payload. -/
def groupArguments (route : Route) : List String :=
  (route.query.map fun _ => "params").toList ++ (route.payload.map fun _ => "payload").toList

/-- The signatures of the client and the options. -/
def trailingSignatures (q : Request) : List String :=
  ["kyInstance?: " ++ clientType, "options?: " ++ q.options]

/-- The names of the client and the options. -/
def trailingArguments : List String := ["kyInstance", "options"]

/-- What a step makes of the request side. -/
def request (s : Step) (route : Route) (q : Request) : Request :=
  match s with
  | .function => { q with function := route.name.usage }
  | .pathSignatures =>
    { q with path.signatures :=
        route.pathParameters.map fun p => signature p.name p.optional p.type }
  | .pathArguments => { q with path.arguments := route.pathParameters.map (·.name) }
  | .query => { q with query := groupType route route.query "QueryParams" }
  | .headers => { q with headers := groupType route route.headers "Headers" }
  | .payload => { q with payload := route.payload.map (·.type) }
  | .options => { q with options := optionsType q.headers.dto }
  | .requiredSignatures =>
    { q with signatures.required := q.path.signatures ++ groupSignatures route q }
  | .allSignatures =>
    { q with signatures.all := q.signatures.required ++ trailingSignatures q }
  | .requiredArguments =>
    { q with arguments.required := q.path.arguments ++ groupArguments route }
  | .allArguments => { q with arguments.all := q.arguments.required ++ trailingArguments }
  | .requestValidator =>
    { q with validator := .describe q.payload (route.body.bind (·.shape)) .payload }
  | .responseDto => q
  | .responseValidator => q

/-- What a step makes of the response side. -/
def response (s : Step) (route : Route) (r : Response) : Response :=
  match s with
  | .responseDto => { r with dto := route.responses.type }
  | .responseValidator =>
    { r with validator := .describe r.dto (route.responses.success?.bind (·.shape)) .response }
  | _ => r

/-- What a step makes of a call. -/
def run (route : Route) (c : Call) (s : Step) : Call :=
  ⟨s.request route c.request, s.response route c.response⟩

end Step

/-- The call of a route. -/
def ofRoute (route : Route) : Call := Step.all.foldl (Step.run route) empty

/-- A call without validators. -/
def withoutValidators (c : Call) : Call :=
  { request := { c.request with validator := .none }
    response := { c.response with validator := .none } }

end Call

end ClientRoutes
