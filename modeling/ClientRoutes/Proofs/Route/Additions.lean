import ClientRoutes.Route
import Mathlib.Data.List.Basic

/-
  Routes, against the list of what has been added to them.

  A route is built by additions of five kinds, in any order and number. Its groups,
  the type of its response and its name are brought up to date by every addition;
  here each of them is read off the list as a whole.

  What is proved:
    1. `Sums.extend` — a parameter keeps a group in step with the parameters of
       its place.
    2. `Reflects.add` — an addition keeps a route in step with the list.
    3. `Reflects.foldl` — and so do any number of additions.
    4. `reflects_build` — a route holds what the list of its additions says.
-/

namespace ClientRoutes.Route

/-- Something that is added to a route. -/
inductive Addition where
  | parameter (p : Parameter)
  | payload (type : String) (optional : Bool) (shape : Option Shape)
  | response (status : String) (type : Option String) (shape : Option Shape)
  | operationId (id : Option String)
  | extensions (e : Extensions)
  deriving DecidableEq, Repr

/-- A route after one addition. -/
def add (r : Route) : Addition → Route
  | .parameter p => r.addParameter p
  | .payload type optional shape => r.setPayload type optional shape
  | .response status type shape => r.addResponse status type shape
  | .operationId id => r.setOperationId id
  | .extensions e => r.setExtensions e

/-- A new route after some additions, one after the other. -/
def build (method : Method) (path module : String) (additions : List Addition) : Route :=
  additions.foldl add (new method path module)

/-! ## What a list of additions says -/

/-- A status that begins with a two. -/
def Succeeds (status : String) : Prop := ['2'] <+: status.toList

instance : DecidablePred Succeeds :=
  fun status => inferInstanceAs (Decidable (['2'] <+: status.toList))

theorem isSuccessStatus_eq (status : String) :
    isSuccessStatus status = decide (Succeeds status) := by
  rw [Bool.eq_iff_iff, decide_eq_true_iff, isSuccessStatus, Succeeds, beq_iff_eq]
  cases status.toList with
  | nil => simp
  | cons c rest => simp [List.cons_prefix_cons, eq_comm]

namespace Addition

/-- The parameter that an addition brings. -/
def parameter? : Addition → Option Parameter
  | .parameter p => some p
  | _ => none

/-- The response that an addition brings. -/
def variant? : Addition → Option Variant
  | .response status _ shape => some ⟨status, decide (Succeeds status), shape⟩
  | _ => none

/-- The type that an addition gives to a success response. -/
def successType? : Addition → Option String
  | .response status type _ => if Succeeds status then type else none
  | _ => none

/-- The operation id that an addition brings; it may say that there is none. -/
def operationId? : Addition → Option (Option String)
  | .operationId id => some id
  | _ => none

end Addition

/-- A group stands for the parameters of a place: it is there if there are any, and
it is optional if all of them are. -/
structure Sums (group : Option Group) (place : Place) (parameters : List Parameter) : Prop where
  isSome_iff : group.isSome = true ↔ ∃ p ∈ parameters, p.place = place
  optional_iff : ∀ g, group = some g →
    (g.optional = true ↔ ∀ p ∈ parameters, p.place = place → p.optional = true)

/-- A route of a method, a path and a module holds what a list of additions says. -/
structure Reflects (r : Route) (method : Method) (path module : String)
    (additions : List Addition) : Prop where
  method_eq : r.method = method
  path_eq : r.path = path
  module_eq : r.module = module
  parameters_eq : r.parameters = additions.filterMap Addition.parameter?
  query : Sums r.query .query r.parameters
  headers : Sums r.headers .header r.parameters
  payload_iff : r.payload.isSome = true ↔ r.body.isSome = true
  variants_eq : r.responses.variants = additions.filterMap Addition.variant?
  isSuccess_iff : ∀ v ∈ r.responses.variants, v.isSuccess = true ↔ Succeeds v.status
  /-- The first success response that comes with a type settles the type. -/
  type_eq : r.responses.type = additions.findSome? Addition.successType?
  /-- The last operation id settles the name. -/
  name_eq : r.name =
    RouteName.derive method path (additions.filterMap Addition.operationId?).getLast?.join

/-! ## One addition -/

theorem Sums.extend {group : Option Group} {place : Place} {parameters : List Parameter}
    (h : Sums group place parameters) (p : Parameter) :
    Sums (if p.place = place then Group.extend group p else group) place (parameters ++ [p]) := by
  by_cases hp : p.place = place
  · rw [if_pos hp]
    refine ⟨iff_of_true rfl ⟨p, by simp, hp⟩, ?_⟩
    intro g hg
    obtain rfl := Option.some.inj hg
    have hall : group.all (·.optional) = true ↔
        ∀ q ∈ parameters, q.place = place → q.optional = true := by
      cases hgroup : group with
      | some g => exact h.optional_iff g hgroup
      | none =>
        -- Without a group the place has no parameters so far.
        have hnone : ¬∃ q ∈ parameters, q.place = place := by
          rw [← h.isSome_iff, hgroup]
          decide
        exact iff_of_true rfl fun q hq hplace => absurd ⟨q, hq, hplace⟩ hnone
    simp only [Bool.and_eq_true, hall, List.forall_mem_append, List.forall_mem_singleton, hp,
      forall_const]
  · rw [if_neg hp]
    refine ⟨?_, fun g hg => ?_⟩
    · rw [h.isSome_iff]
      simp [hp]
    · rw [h.optional_iff g hg]
      simp only [List.forall_mem_append, List.forall_mem_singleton, hp, false_implies, and_true]

theorem sums_query_add {r : Route} (h : Sums r.query .query r.parameters) (a : Addition) :
    Sums (r.add a).query .query (r.add a).parameters := by
  cases a with
  | parameter p => exact h.extend p
  | _ => exact h

theorem sums_headers_add {r : Route} (h : Sums r.headers .header r.parameters) (a : Addition) :
    Sums (r.add a).headers .header (r.add a).parameters := by
  cases a with
  | parameter p => exact h.extend p
  | _ => exact h

theorem parameters_add (r : Route) (a : Addition) :
    (r.add a).parameters = r.parameters ++ a.parameter?.toList := by
  cases a with
  | parameter p => rfl
  | _ => exact (List.append_nil _).symm

theorem variants_add (r : Route) (a : Addition) :
    (r.add a).responses.variants = r.responses.variants ++ a.variant?.toList := by
  cases a with
  | response status type shape => rw [add, addResponse, isSuccessStatus_eq]; rfl
  | _ => exact (List.append_nil _).symm

theorem type_add (r : Route) (a : Addition) :
    (r.add a).responses.type = r.responses.type.or a.successType? := by
  cases a with
  | response status type shape =>
    rw [add, addResponse, isSuccessStatus_eq]
    by_cases hs : Succeeds status <;> simp [Addition.successType?, hs]
  | _ => exact Option.or_none.symm

theorem name_add (r : Route) (a : Addition) :
    (r.add a).name = (a.operationId?.map (RouteName.derive r.method r.path)).getD r.name := by
  cases a <;> rfl

theorem payload_add {r : Route} (h : r.payload.isSome = true ↔ r.body.isSome = true)
    (a : Addition) : (r.add a).payload.isSome = true ↔ (r.add a).body.isSome = true := by
  cases a with
  | payload type optional shape => exact iff_of_true rfl rfl
  | _ => exact h

theorem succeeds_of_variant? {a : Addition} {v : Variant} (h : a.variant? = some v) :
    v.isSuccess = true ↔ Succeeds v.status := by
  cases a with
  | response status type shape =>
    obtain rfl := Option.some.inj h
    exact decide_eq_true_iff
  | _ => cases h

/-- What the list says after one more addition. -/
theorem filterMap_append_singleton {β : Type} (f : Addition → Option β) (additions : List Addition)
    (a : Addition) : (additions ++ [a]).filterMap f = additions.filterMap f ++ (f a).toList := by
  rw [List.filterMap_append]
  cases h : f a <;> simp [h]

theorem Reflects.add {r : Route} {method : Method} {path module : String}
    {additions : List Addition} (h : Reflects r method path module additions) (a : Addition) :
    Reflects (r.add a) method path module (additions ++ [a]) where
  method_eq := by cases a <;> exact h.method_eq
  path_eq := by cases a <;> exact h.path_eq
  module_eq := by cases a <;> exact h.module_eq
  parameters_eq := by rw [parameters_add, h.parameters_eq, filterMap_append_singleton]
  query := sums_query_add h.query a
  headers := sums_headers_add h.headers a
  payload_iff := payload_add h.payload_iff a
  variants_eq := by rw [variants_add, h.variants_eq, filterMap_append_singleton]
  isSuccess_iff := by
    rw [variants_add]
    exact List.forall_mem_append.2
      ⟨h.isSuccess_iff, fun v hv => succeeds_of_variant? (Option.mem_toList.1 hv)⟩
  type_eq := by rw [type_add, h.type_eq, List.findSome?_append, List.findSome?_singleton]
  name_eq := by
    rw [name_add, filterMap_append_singleton, h.method_eq, h.path_eq, h.name_eq]
    cases a.operationId? <;> simp

/-! ## All additions -/

theorem reflects_new (method : Method) (path module : String) :
    Reflects (new method path module) method path module [] where
  method_eq := rfl
  path_eq := rfl
  module_eq := rfl
  parameters_eq := rfl
  query := ⟨by simp [new], by simp [new]⟩
  headers := ⟨by simp [new], by simp [new]⟩
  payload_iff := Iff.rfl
  variants_eq := rfl
  isSuccess_iff := by simp [new, Responses.empty]
  type_eq := rfl
  name_eq := rfl

theorem Reflects.foldl {r : Route} {method : Method} {path module : String}
    {before : List Addition} (h : Reflects r method path module before)
    (additions : List Addition) :
    Reflects (additions.foldl Route.add r) method path module (before ++ additions) := by
  induction additions generalizing r before with
  | nil =>
    rw [List.append_nil]
    exact h
  | cons a rest ih =>
    rw [List.append_cons]
    exact ih (h.add a)

/-- The additions say what they say whatever the route they are made to. -/
theorem variants_foldl (additions : List Addition) (r : Route) :
    (additions.foldl add r).responses.variants =
      r.responses.variants ++ additions.filterMap Addition.variant? := by
  induction additions generalizing r with
  | nil => exact (List.append_nil _).symm
  | cons a rest ih =>
    rw [List.foldl_cons, ih, variants_add, List.append_assoc]
    cases h : a.variant? <;> simp [h]

theorem type_foldl (additions : List Addition) (r : Route) :
    (additions.foldl add r).responses.type =
      r.responses.type.or (additions.findSome? Addition.successType?) := by
  induction additions generalizing r with
  | nil => exact Option.or_none.symm
  | cons a rest ih =>
    rw [List.foldl_cons, ih, type_add, Option.or_assoc, List.findSome?_cons]
    cases a.successType? <;> rfl

theorem method_build (method : Method) (path module : String) (additions : List Addition) :
    (build method path module additions).method = method :=
  ((reflects_new method path module).foldl additions).method_eq

/-- The name of the request function is settled by the method and the path. -/
theorem usage_build (method : Method) (path module : String) (additions : List Addition) :
    (build method path module additions).name.usage = RouteName.usageOf method path := by
  have h := ((reflects_new method path module).foldl additions).name_eq
  rw [build, h]
  rfl

/-- Whatever is added to a new route, in whatever order and however often, the route
holds what the list of its additions says: its parameters and responses are those of
the list in order, a group is there exactly if a parameter of its place is and is
optional exactly if all of them are, a payload comes with a body, a response is a
success exactly if its status begins with a two, the type is that of the first
success response that comes with one, and the name goes by the last operation id. -/
theorem reflects_build (method : Method) (path module : String) (additions : List Addition) :
    Reflects (build method path module additions) method path module additions := by
  exact (reflects_new method path module).foldl additions

end ClientRoutes.Route
