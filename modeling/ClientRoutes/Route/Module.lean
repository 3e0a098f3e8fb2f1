import ClientRoutes.Casing
import ClientRoutes.Text.Edit

/-
  The names that all routes of a module share.
-/

namespace ClientRoutes

/-- The names that all routes of a module share. -/
structure ModuleNames where
  apiClass : String
  apiInstance : String
  parametersType : String
  queryKeyObject : String
  mutationKeyObject : String
  deriving DecidableEq, Repr

/-- The names of a module. Constants are in capitals with underscores for
dashes. -/
def ModuleNames.of (module : String) : ModuleNames :=
  let pascal := Casing.pascalCase module
  let camel := Casing.camelCase module
  let upper := Text.replaceChar '-' '_' (Text.toUpper module)
  { apiClass := pascal ++ "Api"
    apiInstance := camel ++ "Api"
    parametersType := "T" ++ pascal ++ "ApiRequestParameters"
    queryKeyObject := upper ++ "_QUERY_KEY"
    mutationKeyObject := upper ++ "_MUTATION_KEY" }

end ClientRoutes
