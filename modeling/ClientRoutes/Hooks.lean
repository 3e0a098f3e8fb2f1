import ClientRoutes.Call
import ClientRoutes.Hooks.KeyIndex
import ClientRoutes.Hooks.Timing

/-
  The data-fetching hooks of a route.

  Every route gets the names of a query hook, a suspense hook and a mutation
  hook, the cache keys of query and mutation, the calls that the mutation makes
  afterwards, and the cache timings.
-/

namespace ClientRoutes

/-- The hooks that read the answer of a route. -/
structure QueryHook where
  /-- The required arguments of the request function, as one text. -/
  keyArguments : String
  keyConstant : String
  keyFunction : String
  hook : String
  suspenseHook : String
  deriving DecidableEq, Repr

/-- The hook that runs a route for its effect. -/
structure MutationHook where
  keyConstant : String
  keyContent : String
  hook : String
  /-- The calls for what is to be fetched again. -/
  invalidates : List String
  deriving DecidableEq, Repr

/-- The hooks of a route. -/
structure Hooks where
  query : QueryHook
  mutation : MutationHook
  staleTime : Option Timing
  gcTime : Option Timing
  deriving DecidableEq, Repr

namespace Hooks

/-- The query hooks of a route. -/
def queryHook (route : Route) (call : Call) : QueryHook :=
  let base := Casing.pascalCase route.name.usage
  { keyArguments := ", ".intercalate call.request.arguments.required
    keyConstant := Key.constant route.method route.path
    keyFunction := Key.function route call.request.signatures.required
    hook := "use" ++ base ++ "Query"
    suspenseHook := "use" ++ base ++ "SuspenseQuery" }

/-- The mutation hook of a route. -/
def mutationHook (route : Route) (index : KeyIndex) : MutationHook where
  keyConstant := Key.constant route.method route.path
  keyContent := Key.mutation route.path
  hook := "use" ++ Casing.pascalCase route.name.usage ++ "Mutation"
  invalidates := index.calls route

/-- The hooks of a route. -/
def ofRoute (route : Route) (call : Call) (index : KeyIndex) : Hooks where
  query := queryHook route call
  mutation := mutationHook route index
  staleTime := route.extensions.staleTime.bind Timing.ofLiteral?
  gcTime := route.extensions.gcTime.bind Timing.ofLiteral?

/-- The warning about a duration that is there but has no known form. -/
def durationWarning? (route : Route) (field : DurationField) (literal : Option DurationLiteral) :
    Option Warning :=
  literal.bind fun l =>
    if (Timing.ofLiteral? l).isNone then some (.unknownDuration route.name.usage field l) else none

/-- The warnings about the extensions of a route. -/
def warnings (route : Route) (index : KeyIndex) : List Warning :=
  index.callWarnings route ++
    (durationWarning? route .staleTime route.extensions.staleTime).toList ++
    (durationWarning? route .gcTime route.extensions.gcTime).toList

end Hooks

end ClientRoutes
