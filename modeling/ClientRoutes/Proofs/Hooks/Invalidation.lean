import ClientRoutes.Hooks
import ClientRoutes.Proofs.Hooks.KeyIndex

/-
  The calls that the entries of a list of invalidations become.

  An entry becomes a call if it is a directive and some GET route declares the
  key of the directive. `callOf?` says so without the index, by a search of the
  routes; the constant is the one that the hooks of the route found go by.

  What is proved:
    1. `call?_ofEntry` — what becomes of one entry.
    2. `calls_build` — the calls of a route are those of its entries, in order;
       which constant a key has depends on the first GET route that declares it
       and on nothing else.
-/

namespace ClientRoutes

namespace Directive

/-- The argument tokens of a directive; the bare form has none. -/
def tokens (d : Directive) : List String := d.arguments.getD []

/-- The expressions for those arguments of a directive that refer to something. -/
def rendered (d : Directive) : List String :=
  d.tokens.filterMap fun token => (Reference.ofToken token).render?

end Directive

namespace KeyIndex

/-- The constant by which the query hooks of a route go. -/
def hookConstant (routes : List Route) (route : Route) : String :=
  (Hooks.ofRoute route (Call.ofRoute route) (build routes)).query.keyConstant

/-- The call that an entry of a list of invalidations stands for among some
routes. -/
def callOf? (routes : List Route) (entry : String) : Option String := do
  let d ← Directive.ofText? entry
  let target ← routes.find? (Declares d.key)
  return hookConstant routes target ++ "(" ++ ", ".intercalate d.rendered ++ ")"

/-- The constant that the index keeps for a key is the one that the hooks of its
first route have. -/
theorem constant?_build_eq_hookConstant (routes : List Route) (key : String) :
    (build routes).constant? key = (routes.find? (Declares key)).map (hookConstant routes) :=
  constant?_build routes key

theorem call?_ofEntry (routes : List Route) (entry : String) :
    (Outcome.ofEntry (build routes) entry).call? = callOf? routes entry := by
  unfold Outcome.ofEntry callOf?
  cases Directive.ofText? entry with
  | none => rfl
  | some d =>
    simp only [constant?_build_eq_hookConstant, Option.bind_eq_bind, Option.bind_some]
    cases routes.find? (Declares d.key) <;> rfl

/-- Every entry whose directive has a key that some GET route declares becomes one
call, in the order of the entries, and no other entry does; the call names the
constant of the first such route. Routes that are not read with GET and routes
behind the first declaration leave the constant of a key as it is, and the index
has as many keys as GET routes declare different ones. -/
theorem calls_build (routes : List Route) (route : Route) :
    (build routes).calls route = route.extensions.invalidates.filterMap (callOf? routes) ∧
      (∀ key, (build routes).constant? key =
        (routes.find? (Declares key)).map (hookConstant routes)) ∧
      build (routes.filter (·.method = .get)) = build routes ∧
      (∀ later key, (build (routes ++ later)).constant? key =
        ((build routes).constant? key).or ((build later).constant? key)) ∧
      (build routes).size = (declarations routes).toFinset.card := by
  refine ⟨?_, constant?_build_eq_hookConstant routes, build_filter_get routes,
    constant?_build_append routes, size_build routes⟩
  simp only [calls, outcomes, List.filterMap_map]
  apply List.filterMap_congr
  intro entry _
  exact call?_ofEntry routes entry

/-- A route with a key, and one whose entry has an argument of every kind. -/
def detailRoutes : List Route :=
  [(Route.new .get "/users/\x7buserId\x7d" "users").setExtensions
      { Extensions.empty with queryKey := some "USER_DETAIL" },
    (Route.new .post "/users" "users").setExtensions
      { Extensions.empty with invalidates :=
        ["USER_LIST", "USER_DETAIL($parameters.user_id, $parameters.$query, name, $payload.owner.id, " ++
          "$payload., $response.id)"] }]

/-- The arguments are rendered in their order, but for the two that refer to nothing. -/
theorem calls_build_detail :
    (build detailRoutes).calls detailRoutes[1] =
      ["GET_USERS_USERID(variables.userId, params, data.ownerId, data.id)"] := by
  obtain ⟨hcalls, -⟩ := calls_build detailRoutes detailRoutes[1]
  rw [hcalls]
  decide +kernel

end KeyIndex

end ClientRoutes
