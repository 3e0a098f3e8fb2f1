import ClientRoutes.Text.Edit

/-
  The kinds of generated files.

  What is proved:
    1. `mem_all` — the list of kinds is complete.
    2. `ofText?_key` — a kind reads back from its key.
-/

namespace ClientRoutes

/-- A kind of generated file. -/
inductive Artifact where
  | dto
  | api
  | apiInstance
  | queries
  | mutations
  | schema
  | apiUtils
  | streamUtils
  | typeGuards
  | streamHandlers
  deriving DecidableEq, Repr, Inhabited

namespace Artifact

/-- All kinds, in order. -/
def all : List Artifact :=
  [.dto, .api, .apiInstance, .queries, .mutations, .schema, .apiUtils, .streamUtils, .typeGuards,
    .streamHandlers]

/-- The key of a kind. -/
def key : Artifact → String
  | .dto => "dto"
  | .api => "api"
  | .apiInstance => "apiInstance"
  | .queries => "queries"
  | .mutations => "mutations"
  | .schema => "schema"
  | .apiUtils => "apiUtils"
  | .streamUtils => "streamUtils"
  | .typeGuards => "typeGuards"
  | .streamHandlers => "streamHandlers"

/-- Where files of a kind go unless the settings say otherwise. -/
def defaultPath : Artifact → String
  | .dto => "src/shared/api/dto.ts"
  | .api => "src/entities/\x7bmoduleName\x7d/api/index.ts"
  | .apiInstance => "src/entities/\x7bmoduleName\x7d/api/instance.ts"
  | .queries => "src/entities/\x7bmoduleName\x7d/api/queries.ts"
  | .mutations => "src/entities/\x7bmoduleName\x7d/api/mutations.ts"
  | .schema => "src/shared/api/schema.gen.ts"
  | .apiUtils => "src/shared/api/utils.gen.ts"
  | .streamUtils => "src/shared/api/stream.gen.ts"
  | .typeGuards => "src/shared/api/type-guards.gen.ts"
  | .streamHandlers => "src/entities/\x7bmoduleName\x7d/api/stream-handlers"

/-- The kind a text names in letters of any case. -/
def ofText? (s : String) : Option Artifact :=
  all.find? fun a => Text.sameIgnoringCase a.key s

/-- The words for a text that names no kind. -/
def unknownMessage (s : String) : String := "unknown artifact category: " ++ s

theorem mem_all (a : Artifact) : a ∈ all := by cases a <;> decide

theorem ofText?_key (a : Artifact) : ofText? a.key = some a := by cases a <;> decide

end Artifact

end ClientRoutes
