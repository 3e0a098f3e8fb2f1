import ClientRoutes.Hooks.Directive
import ClientRoutes.Hooks.Key
import ClientRoutes.Warning

/-
  Query keys and the calls that refer to them.

  The index maps the query key of every GET route to the name of its constant;
  of several routes with one key the first counts. An entry of a route's list of
  invalidations becomes a call of the constant its directive names, or is left
  out with a warning (`Outcome`).
-/

namespace ClientRoutes

/-- The constants of query keys, in the order in which the keys are declared. -/
structure KeyIndex where
  targets : List (String × String)
  deriving DecidableEq, Repr

namespace KeyIndex

/-- No keys. -/
def empty : KeyIndex := ⟨[]⟩

/-- The constant of a key. -/
def constant? (index : KeyIndex) (key : String) : Option String := index.targets.lookup key

/-- The number of keys. -/
def size (index : KeyIndex) : Nat := index.targets.length

/-- Declares a key unless it is there. -/
def add (index : KeyIndex) (key constant : String) : KeyIndex :=
  if (index.constant? key).isSome then index else ⟨index.targets ++ [(key, constant)]⟩

/-- The key a route declares. -/
def declared? (route : Route) : Option String :=
  if route.method = .get then route.extensions.queryKey else none

/-- Declares the key of a route. -/
def addRoute (index : KeyIndex) (route : Route) : KeyIndex :=
  match declared? route with
  | some key => index.add key (Key.constant route.method route.path)
  | none => index

/-- The warning about a route whose key is already there. -/
def repetition? (index : KeyIndex) (route : Route) : Option Warning :=
  (declared? route).bind fun key =>
    (index.constant? key).map fun _ => .repeatedKey key route.path

/-- Declares the keys of some routes and warns about the repeated ones. -/
def addRoutes (index : KeyIndex) : List Route → KeyIndex × List Warning
  | [] => (index, [])
  | route :: rest =>
    let (last, warnings) := addRoutes (index.addRoute route) rest
    (last, (index.repetition? route).toList ++ warnings)

/-- The index of some routes. -/
def build (routes : List Route) : KeyIndex := (empty.addRoutes routes).1

/-- The warnings about keys that some routes repeat. -/
def repetitions (routes : List Route) : List Warning := (empty.addRoutes routes).2

end KeyIndex

/-! ## Invalidations -/

/-- What becomes of an entry of a list of invalidations. -/
inductive Outcome where
  /-- The entry is no directive. -/
  | malformed (entry : String)
  /-- No route has the key of the directive. -/
  | unknown (key : String)
  /-- The directive calls a constant. -/
  | call (constant key : String) (tokens : List String)
  deriving DecidableEq, Repr

namespace Outcome

/-- What becomes of an entry. -/
def ofEntry (index : KeyIndex) (entry : String) : Outcome :=
  match Directive.ofText? entry with
  | none => .malformed entry
  | some d =>
    match index.constant? d.key with
    | none => .unknown d.key
    | some constant => .call constant d.key (d.arguments.getD [])

/-- The expression for one argument. -/
def argument? (token : String) : Option String := (Reference.ofToken token).render?

/-- The call an entry becomes. -/
def call? : Outcome → Option String
  | .call constant _ tokens =>
    some (constant ++ "(" ++ ", ".intercalate (tokens.filterMap argument?) ++ ")")
  | _ => none

/-- The warnings about an entry. -/
def warnings (route : String) : Outcome → List Warning
  | .malformed entry => [.malformedEntry route entry]
  | .unknown key => [.unknownKey route key]
  | .call _ key tokens =>
    (tokens.filter fun t => (argument? t).isNone).map fun t => .unresolvableArgument route t key

end Outcome

namespace KeyIndex

/-- What becomes of the invalidations of a route. -/
def outcomes (index : KeyIndex) (route : Route) : List Outcome :=
  route.extensions.invalidates.map (Outcome.ofEntry index)

/-- The calls the invalidations of a route become. -/
def calls (index : KeyIndex) (route : Route) : List String :=
  (index.outcomes route).filterMap Outcome.call?

/-- The warnings about the invalidations of a route. -/
def callWarnings (index : KeyIndex) (route : Route) : List Warning :=
  (index.outcomes route).flatMap (Outcome.warnings route.name.usage)

end KeyIndex

end ClientRoutes
