import ClientRoutes.Report

/-
  Reports in words.

  A report is a head and one section for every module. A section has the routes
  of its module as blocks, in the order of the document.
-/

namespace ClientRoutes

namespace RouteReport

/-- A line of a block with a label. -/
def line (label value : String) : String := "    " ++ label ++ value ++ "\n"

/-- A line of a block, if there is a value. -/
def line? (label : String) (value : Option String) : String :=
  (value.map (line label)).getD ""

/-- A timing with its comment. -/
def timing (t : Timing) : String :=
  match t.comment with
  | some comment => t.expression ++ " // " ++ comment
  | none => t.expression

/-- The calls that a mutation makes, if there are any. -/
def invalidates? (r : RouteReport) : Option String :=
  if r.hooks.mutation.invalidates.isEmpty then none
  else some (", ".intercalate r.hooks.mutation.invalidates)

/-- The line with the method, the path and the name in the document. -/
def title (r : RouteReport) : String :=
  "  " ++ r.method.capitals ++ " " ++ r.path ++ "  [" ++ r.name.identifier ++ "]\n"

/-- The request function as it is called. -/
def signature (r : RouteReport) : String :=
  r.call.request.function ++ "(" ++ ", ".intercalate r.call.request.signatures.all ++
    "): Promise<" ++ r.call.response.dto.getD "unknown" ++ ">"

/-- The names of the hooks. -/
def hookNames (r : RouteReport) : String :=
  r.hooks.query.hook ++ ", " ++ r.hooks.query.suspenseHook ++ ", " ++ r.hooks.mutation.hook

/-- The block of a route. -/
def text (r : RouteReport) : String :=
  r.title ++ line "" r.signature ++
    line "key:      " r.hooks.query.keyFunction ++
    line "hooks:    " r.hookNames ++
    line? "payload:  " r.call.request.validator.expression ++
    line? "response: " r.call.response.validator.expression ++
    line? "invalidates: " r.invalidates? ++
    line? "staleTime: " (r.hooks.staleTime.map timing) ++
    line? "gcTime: " (r.hooks.gcTime.map timing) ++ "\n"

end RouteReport

namespace Report

/-- The lines in front of the sections. -/
def head (r : Report) : String :=
  "Route Configuration Report\n==========================\n\n" ++
    "Document:   " ++ r.document ++ "\n" ++
    ((r.title.map fun title => "Title:      " ++ title ++ "\n").getD "") ++
    "Version:    " ++ r.version ++ "\n" ++
    "Routes:     " ++ toString r.routes.length ++ "\n" ++
    "Modules:    " ++ toString r.modules.length ++ "\n" ++
    "Query keys: " ++ toString r.keyCount ++ "\n\n"

/-- The line under the title of a section, as long as the name of the module in
bytes and seven more. -/
def underline (name : String) : String :=
  String.ofList (List.replicate (name.utf8ByteSize + 7) '-')

/-- The lines of a section in front of its routes. -/
def sectionHead (m : ModuleReport) : String :=
  "Module " ++ m.name ++ " (" ++ m.names.apiClass ++ ")\n" ++ underline m.name ++ "\n" ++
    "  instance:      " ++ m.names.apiInstance ++ "\n" ++
    "  query keys:    " ++ m.names.queryKeyObject ++ "\n" ++
    "  mutation keys: " ++ m.names.mutationKeyObject ++ "\n" ++
    "  imports:       queries -> api " ++ m.imports.queriesToApi ++ "\n" ++
    "                 api -> dto " ++ m.imports.apiToDto ++ "\n\n"

/-- The routes of a section. -/
def sectionRoutes (r : Report) (m : ModuleReport) : List RouteReport :=
  r.routes.filter fun route => route.module = m.name

/-- The section of a module. -/
def sectionText (r : Report) (m : ModuleReport) : String :=
  sectionHead m ++ String.join ((r.sectionRoutes m).map RouteReport.text)

/-- A report in words. -/
def text (r : Report) : String := r.head ++ String.join (r.modules.map r.sectionText)

end Report

end ClientRoutes
