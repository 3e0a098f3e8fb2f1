import ClientRoutes.Description

/-
  The parameters of the routes of a description.

  The route of an operation gets its parameters one by one: the declared ones,
  then one for every placeholder that none of them binds. What is said about the
  route afterwards leaves its parameters as they are.

  What is proved:
    1. `exists_operation` — every route of a description is the route of an
       operation.
    2. `parameters_route` — its parameters are those of the two rounds.
    3. `field_requestRoute`, `field_route` — what parameters, a payload and responses leave
       as it is stays as in a new route.
    4. `path_route`, `extensions_route` — its path and its extensions are those of the
       operation.
    5. `pathParameter_required` — a parameter in the path is never optional.
-/

namespace ClientRoutes

namespace Description

/-- Every route of a description comes from an operation in it. -/
theorem exists_operation {root : Value} {d : Description} {r : Route}
    (hd : ofValue root = .ok d) (hr : r ∈ d.routes) :
    ∃ method path operation shared, r = Operation.route root method path operation shared := by
  unfold ofValue at hd
  cases hv : version? root with
  | none => simp [hv] at hd
  | some version =>
    cases hp : root.get? "paths" with
    | none => simp only [hv, hp, Except.ok.injEq] at hd; subst hd; simp at hr
    | some paths =>
      cases he : paths.entries? with
      | none => simp [hv, hp, he] at hd
      | some entries =>
        simp only [hv, hp, he, Except.ok.injEq] at hd
        subst hd
        obtain ⟨⟨key, item⟩, -, hitem⟩ := List.mem_flatMap.1 hr
        cases hk : key.text? with
        | none => simp [hk] at hitem
        | some path =>
          simp only [hk] at hitem
          obtain ⟨⟨name, operation⟩, -, ho⟩ := List.mem_filterMap.1 hitem
          obtain ⟨method, -, rfl⟩ := Option.map_eq_some_iff.1 ho
          exact ⟨method, path, operation, _, rfl⟩

end Description

namespace Operation

/-- The parameters of a route before its placeholders are bound. -/
def declaredRoute (root : Value) (method : Method) (path : String) (operation : Value)
    (shared : Option Value) : Route :=
  ((declared root operation shared).filterMap parameter?).foldl Route.addParameter
    (((Route.new method path (module operation path)).setOperationId
      (operation.textAt? "operationId")).setExtensions (extensions operation))

/-- A field that no step changes is as it was. -/
theorem field_foldl {α β : Type} {f : Route → α → Route} (field : Route → β)
    (h : ∀ r a, field (f r a) = field r) (as : List α) (r : Route) :
    field (as.foldl f r) = field r := by
  induction as generalizing r with
  | nil => rfl
  | cons a rest ih => rw [List.foldl_cons, ih, h]

theorem parameters_addResponse (root : Value) (r : Route) (status : String) (response : Value) :
    (addResponse root r status response).parameters = r.parameters := by
  unfold addResponse
  split <;> rfl

theorem parameters_addResponses (root : Value) (responses : List (String × Value)) (r : Route) :
    (responses.foldl (fun r e => addResponse root r e.1 e.2) r).parameters = r.parameters := by
  apply field_foldl Route.parameters
  intro r e
  exact parameters_addResponse root r e.1 e.2

/-- Payload and responses leave the parameters of a route as they are. -/
theorem parameters_route (root : Value) (method : Method) (path : String) (operation : Value)
    (shared : Option Value) :
    (route root method path operation shared).parameters =
      ((Template.placeholders path).foldl bind
        (declaredRoute root method path operation shared)).parameters := by
  unfold route
  refine (parameters_addResponses root (responses operation) _).trans ?_
  cases content? root operation (declared root operation shared) <;> rfl

/-- The route of an operation before its responses are added. -/
def requestRoute (root : Value) (method : Method) (path : String) (operation : Value)
    (shared : Option Value) : Route :=
  let r := (Template.placeholders path).foldl bind (declaredRoute root method path operation shared)
  match content? root operation (declared root operation shared) with
  | some c => r.setPayload c.type c.optional c.shape
  | none => r

/-- A field that neither parameters nor a payload change is as it is in a new route with a
name and extensions. -/
theorem field_requestRoute {β : Type} (field : Route → β)
    (hparameter : ∀ r p, field (Route.addParameter r p) = field r)
    (hpayload : ∀ r type optional shape, field (Route.setPayload r type optional shape) = field r)
    (root : Value) (method : Method) (path : String) (operation : Value) (shared : Option Value) :
    field (requestRoute root method path operation shared) =
      field (((Route.new method path (module operation path)).setOperationId
        (operation.textAt? "operationId")).setExtensions (extensions operation)) := by
  have hbind : ∀ (r : Route) (placeholder : String), field (bind r placeholder) = field r := by
    intro r placeholder
    unfold bind
    split
    · rfl
    · exact hparameter r _
  have hdeclared : field (declaredRoute root method path operation shared) =
      field (((Route.new method path (module operation path)).setOperationId
        (operation.textAt? "operationId")).setExtensions (extensions operation)) :=
    field_foldl field hparameter _ _
  have hbound := (field_foldl field hbind (Template.placeholders path) _).trans hdeclared
  unfold requestRoute
  cases content? root operation (declared root operation shared) with
  | some c => exact (hpayload _ _ _ _).trans hbound
  | none => exact hbound

/-- A field that parameters, payload and responses leave as it is stays as in a new route with
a name and extensions. -/
theorem field_route {β : Type} (field : Route → β)
    (hparameter : ∀ r p, field (Route.addParameter r p) = field r)
    (hpayload : ∀ r type optional shape, field (Route.setPayload r type optional shape) = field r)
    (hresponse : ∀ r status type shape, field (Route.addResponse r status type shape) = field r)
    (root : Value) (method : Method) (path : String) (operation : Value) (shared : Option Value) :
    field (route root method path operation shared) =
      field (((Route.new method path (module operation path)).setOperationId
        (operation.textAt? "operationId")).setExtensions (extensions operation)) := by
  have hadded : ∀ (r : Route) (e : String × Value),
      field (addResponse root r e.1 e.2) = field r := by
    intro r e
    unfold addResponse
    split
    · exact hresponse r _ _ _
    · exact hresponse r _ _ _
  unfold route
  refine (field_foldl field hadded (responses operation) _).trans ?_
  exact field_requestRoute field hparameter hpayload root method path operation shared

/-- The route of an operation keeps the path as it is written. -/
theorem path_route (root : Value) (method : Method) (path : String) (operation : Value)
    (shared : Option Value) : (route root method path operation shared).path = path :=
  field_route Route.path (fun _ _ => rfl) (fun _ _ _ _ => rfl) (fun _ _ _ _ => rfl) root method
    path operation shared

/-- The route of an operation has the extensions of the operation. -/
theorem extensions_route (root : Value) (method : Method) (path : String) (operation : Value)
    (shared : Option Value) :
    (route root method path operation shared).extensions = extensions operation :=
  field_route Route.extensions (fun _ _ => rfl) (fun _ _ _ _ => rfl) (fun _ _ _ _ => rfl) root
    method path operation shared

/-- The parameters of a route that are carried in the path are all required. -/
def PathRequired (r : Route) : Prop := ∀ p ∈ r.parameters, p.place = .path → p.optional = false

theorem PathRequired.addParameter {r : Route} (h : PathRequired r) {p : Parameter}
    (hp : p.place = .path → p.optional = false) : PathRequired (r.addParameter p) := by
  intro q hq hplace
  rcases List.mem_append.1 hq with hq | hq
  · exact h q hq hplace
  · obtain rfl := List.mem_singleton.1 hq
    exact hp hplace

theorem PathRequired.addParameters {r : Route} (h : PathRequired r) (ps : List Parameter)
    (hps : ∀ p ∈ ps, p.place = .path → p.optional = false) :
    PathRequired (ps.foldl Route.addParameter r) := by
  induction ps generalizing r with
  | nil => exact h
  | cons p rest ih =>
    apply ih (h.addParameter (hps p (by simp)))
    intro q hq
    exact hps q (by simp [hq])

theorem PathRequired.bind {r : Route} (h : PathRequired r) (placeholder : String) :
    PathRequired (Operation.bind r placeholder) := by
  unfold Operation.bind
  split
  · exact h
  · exact h.addParameter fun _ => rfl

theorem PathRequired.bindAll {r : Route} (h : PathRequired r) (placeholders : List String) :
    PathRequired (placeholders.foldl Operation.bind r) := by
  induction placeholders generalizing r with
  | nil => exact h
  | cons placeholder rest ih => exact ih (h.bind placeholder)

theorem optional_of_parameter? {v : Value} {p : Parameter} (h : parameter? v = some p)
    (hp : p.place = .path) : p.optional = false := by
  unfold parameter? at h
  obtain ⟨name, -, h⟩ := Option.bind_eq_some_iff.1 h
  obtain ⟨place, -, h⟩ := Option.bind_eq_some_iff.1 h
  obtain rfl := Option.some.inj h
  have hplace : place = .path := hp
  simp [hplace]

theorem pathRequired_route (root : Value) (method : Method) (path : String) (operation : Value)
    (shared : Option Value) : PathRequired (route root method path operation shared) := by
  have hdeclared : PathRequired (declaredRoute root method path operation shared) := by
    refine PathRequired.addParameters ?_ _ ?_
    · intro p hp
      cases hp
    · intro p hp
      obtain ⟨v, -, hv⟩ := List.mem_filterMap.1 hp
      exact optional_of_parameter? hv
  unfold PathRequired
  rw [parameters_route]
  exact hdeclared.bindAll _

end Operation

theorem Description.pathParameter_required {root : Value} {d : Description} {r : Route}
    (hd : Description.ofValue root = .ok d) (hr : r ∈ d.routes) {p : Parameter}
    (hp : p ∈ r.pathParameters) : p.optional = false := by
  obtain ⟨method, path, operation, shared, rfl⟩ := Description.exists_operation hd hr
  obtain ⟨hmem, hplace⟩ := List.mem_filter.1 hp
  exact Operation.pathRequired_route root method path operation shared p hmem (by simpa using hplace)

end ClientRoutes
