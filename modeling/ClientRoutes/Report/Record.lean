import ClientRoutes.Json
import ClientRoutes.Report

/-
  Reports as JSON values.

  The fields of every record are in a fixed order, and a field without a value
  is null; only the timings of the hooks are left out when there are none.
-/

namespace ClientRoutes

/-- The record of the names of a route. -/
def RouteName.record (n : RouteName) : Json :=
  .record [("original", .text n.identifier), ("usage", .text n.usage)]

/-- The record of a validator. -/
def Validator.record (v : Validator) : Json :=
  .record [("list", .ofTexts v.names), ("expression", .ofText? v.expression)]

/-- The record of the type of a group. -/
def GroupType.record (g : GroupType) : Json :=
  .record [("dtoName", .ofText? g.dto), ("schemaName", .text g.schema)]

/-- The record of some entries. -/
def Entries.record (e : Entries) : Json :=
  .record [("required", .ofTexts e.required), ("all", .ofTexts e.all)]

/-- The record of the request side of a call. -/
def Request.record (q : Request) : Json :=
  .record [
    ("functionName", .text q.function),
    ("pathParams", .record [
      ("signatures", .ofTexts q.path.signatures),
      ("arguments", .ofTexts q.path.arguments)]),
    ("query", q.query.record),
    ("headers", q.headers.record),
    ("payload", .record [("dtoName", .ofText? q.payload)]),
    ("options", .record [("typeExpr", .text q.options)]),
    ("parameters", .record [
      ("signatures", q.signatures.record),
      ("arguments", q.arguments.record)]),
    ("schema", q.validator.record)]

/-- The record of a call. -/
def Call.record (c : Call) : Json :=
  .record [
    ("request", c.request.record),
    ("response", .record [
      ("dtoName", .ofText? c.response.dto),
      ("schema", c.response.validator.record)])]

/-- The record of a timing. -/
def Timing.record (t : Timing) : Json :=
  .record [("expression", .text t.expression), ("comment", .ofText? t.comment)]

/-- The field of a timing, if there is one. -/
def Timing.field? (name : String) (t : Option Timing) : List (String × Json) :=
  (t.map fun t => (name, t.record)).toList

/-- The record of the query hooks. -/
def QueryHook.record (h : QueryHook) : Json :=
  .record [
    ("keyArgs", .text h.keyArguments),
    ("keyConstantName", .text h.keyConstant),
    ("keyConstantFunction", .text h.keyFunction),
    ("hookName", .text h.hook),
    ("suspenseHookName", .text h.suspenseHook)]

/-- The record of the mutation hook. -/
def MutationHook.record (h : MutationHook) : Json :=
  .record [
    ("keyConstantName", .text h.keyConstant),
    ("keyConstantContent", .text h.keyContent),
    ("hookName", .text h.hook),
    ("invalidateQueryKey", .ofTexts h.invalidates)]

/-- The record of the hooks of a route. -/
def Hooks.record (h : Hooks) : Json :=
  .record ([("query", h.query.record), ("mutation", h.mutation.record)] ++
    Timing.field? "staleTime" h.staleTime ++ Timing.field? "gcTime" h.gcTime)

/-- The record of a route. -/
def RouteReport.record (r : RouteReport) : Json :=
  .record [
    ("method", .text r.method.name),
    ("path", .text r.path),
    ("module", .text r.module),
    ("routeName", r.name.record),
    ("route", r.call.record),
    ("query", r.hooks.record)]

/-- The record of where a kind of file is written. -/
def Location.record (l : Location) : Json :=
  .record [
    ("relativePath", .text l.relative),
    ("absolutePath", .text l.absolute),
    ("alias", .text l.specifier)]

/-- The fields for the names of a module. -/
def ModuleNames.fields (n : ModuleNames) : List (String × Json) :=
  [("apiClassName", .text n.apiClass),
    ("apiInstanceName", .text n.apiInstance),
    ("apiParametersTypeName", .text n.parametersType),
    ("queryKeyObjectName", .text n.queryKeyObject),
    ("mutationKeyObjectName", .text n.mutationKeyObject)]

/-- The record of the imports of a module. -/
def ModuleImports.record (i : ModuleImports) : Json :=
  .record [
    ("apiToDto", .text i.apiToDto),
    ("apiToInstance", .text i.apiToInstance),
    ("queriesToApi", .text i.queriesToApi),
    ("mutationsToApi", .text i.mutationsToApi),
    ("schemaToDto", .text i.schemaToDto)]

/-- The record of some locations by kind of file. -/
def Location.recordOf (locations : List (Artifact × Location)) : Json :=
  .record (locations.map fun (kind, l) => (kind.key, l.record))

/-- The record of a module. -/
def ModuleReport.record (m : ModuleReport) : Json :=
  .record ([("name", .text m.name)] ++ m.names.fields ++
    [("paths", Location.recordOf m.locations), ("imports", m.imports.record)])

/-- The record of a report that took some milliseconds. -/
def Report.record (r : Report) (elapsed : Nat) : Json :=
  .record [
    ("metadata", .record [
      ("document", .text r.document),
      ("title", .ofText? r.title),
      ("version", .text r.version),
      ("routeCount", .ofNat r.routes.length),
      ("moduleCount", .ofNat r.modules.length),
      ("queryKeyCount", .ofNat r.keyCount),
      ("createSchema", .bool r.createSchema),
      ("projectTemplate", .ofText? r.projectTemplate),
      ("elapsedMs", .ofNat elapsed)]),
    ("modules", .list (r.modules.map ModuleReport.record)),
    ("routes", .list (r.routes.map RouteReport.record))]

end ClientRoutes
