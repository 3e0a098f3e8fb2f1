import ClientRoutes.Route

/-
  Cache keys of routes.

  The key of a query is an array of the segments of the path: literal segments
  in quotes, parameters by name, then the groups of arguments. `api` segments
  are left out. The key of a mutation quotes every segment.
-/

namespace ClientRoutes.Key

/-- The segments of a path that take part in a key. -/
def segments (path : String) : List String :=
  (Template.segments path).filter (· != "api")

/-- A segment as part of the name of a constant. -/
def constantPart (segment : String) : String :=
  Text.replaceChar '-' '_' (Text.toUpper (Template.bare segment))

/-- The name of the constant for the key of a route, such as
`GET_USERS_USERID_POSTS`. -/
def constant (method : Method) (path : String) : String :=
  "_".intercalate (method.capitals :: (segments path).map constantPart)

/-- A text in single quotes. -/
def quoted (s : String) : String := "'" ++ s ++ "'"

/-- A list of entries in brackets. -/
def array (entries : List String) : String := "[" ++ ", ".intercalate entries ++ "]"

/-- A segment as an entry of the key of a query. -/
def entry (segment : String) : String :=
  if Template.isParameter segment then Text.replaceChar '-' '_' (Template.bare segment)
  else quoted segment

/-- The entries of the key of a query. -/
def entries (route : Route) : List String :=
  (segments route.path).map entry ++
    (route.query.map fun _ => "params").toList ++ (route.payload.map fun _ => "payload").toList

/-- The key of a query. -/
def query (route : Route) : String := array (entries route)

/-- The function that gives the key of a query from its arguments. -/
def function (route : Route) (signatures : List String) : String :=
  "(" ++ ", ".intercalate signatures ++ ")=>" ++ query route

/-- The key of a mutation. -/
def mutation (path : String) : String :=
  array ((Template.segments path).map fun s => quoted (Template.bare s))

end ClientRoutes.Key
