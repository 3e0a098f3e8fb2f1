import ClientRoutes.Casing
import ClientRoutes.Method
import ClientRoutes.Route.Template
import ClientRoutes.Text.Blank

/-
  The names of a route.

  The request function of `GET /users/{userId}/posts` is named
  `getUsersByUserIdPosts`. The name in the document is the operation id, or
  without one the same words without `By`.
-/

namespace ClientRoutes

/-- The names of a route. -/
structure RouteName where
  /-- The identifier in the document, or one made from method and path. -/
  identifier : String
  /-- The name of the request function. -/
  usage : String
  deriving DecidableEq, Repr, Inhabited

namespace RouteName

/-- What a segment contributes to the name of the request function. -/
def usageWord (segment : String) : String :=
  if Template.isParameter segment then "By_" ++ Template.withoutBraces segment else segment

/-- The name of the request function of a method and a path. -/
def usageOf (method : Method) (path : String) : String :=
  Casing.camelCase ("_".intercalate (method.name :: (Template.segments path).map usageWord))

/-- The name of a route whose document gives it none. -/
def fallback (method : Method) (path : String) : String :=
  Casing.camelCase
    ("_".intercalate (method.name :: (Template.segments path).map Template.withoutBraces))

/-- The name that an operation id gives; a blank one gives none. -/
def ofOperationId? (id : Option String) : Option String :=
  (id.map fun s => String.ofList (Text.trim s.toList)).filter (!·.isEmpty)

/-- The names of a route. -/
def derive (method : Method) (path : String) (operationId : Option String) : RouteName where
  identifier := (ofOperationId? operationId).getD (fallback method path)
  usage := usageOf method path

end RouteName

end ClientRoutes
