import ClientRoutes.Proofs.Call.Signatures
import ClientRoutes.Proofs.Description.Tags
import Mathlib.Data.List.Nodup

/-
  The names of the arguments of a request function.

  Parameters in the path give their own names to arguments, and behind them come up to
  four names that are the same for every route. Nothing keeps the former apart from the
  latter. Among themselves the names from the path differ: a later entry of a document
  takes the place of an earlier one, and a placeholder is bound only if its name is not
  there. For the entries names count with their tags, for the arguments without.

  What is proved:
    1. `nodup_arguments` — when the names of arguments differ, in terms of the path.
    2. `nodup_pathNames_bound` — placeholders repeat no name.
    3. `nodup_pathNames_declared` — neither do entries without tags.
    4. `nodup_arguments_iff` — when the names differ in a route of a document.
    5. `arguments_repeat` — routes in which they do not.
-/

namespace ClientRoutes

/-! ## Fixed names -/

namespace Call

/-- The names of the arguments of a route that do not come from its path. -/
def fixedNames (route : Route) : List String := Step.groupArguments route ++ Step.trailingArguments

/-- Whether a name is one of them: the client and the options are always there, the
groups only if the route has them. -/
def IsFixed (route : Route) (name : String) : Prop :=
  name = "kyInstance" ∨ name = "options" ∨ name = "params" ∧ route.query.isSome = true ∨
    name = "payload" ∧ route.payload.isSome = true

theorem mem_fixedNames_iff {route : Route} {name : String} :
    name ∈ fixedNames route ↔ IsFixed route name := by
  unfold fixedNames IsFixed Step.groupArguments Step.trailingArguments
  cases route.query <;> cases route.payload <;> simp <;> tauto

theorem nodup_fixedNames (route : Route) : (fixedNames route).Nodup := by
  unfold fixedNames Step.groupArguments Step.trailingArguments
  cases route.query <;> cases route.payload <;> simp

/-- The names that parameters in the path give. -/
def pathNames (ps : List Parameter) : List String :=
  (ps.filter fun p => p.place = .path).map Parameter.name

theorem arguments_eq (route : Route) :
    (ofRoute route).request.arguments.all = pathNames route.parameters ++ fixedNames route :=
  List.append_assoc ..

/-- The names differ if those from the path differ and none of them is a fixed one. -/
theorem nodup_arguments (route : Route) :
    (ofRoute route).request.arguments.all.Nodup ↔
      (pathNames route.parameters).Nodup ∧
        ∀ name ∈ pathNames route.parameters, ¬IsFixed route name := by
  rw [arguments_eq, List.nodup_append']
  constructor
  · rintro ⟨hpath, -, hdisjoint⟩
    exact ⟨hpath, fun name hname hfixed => hdisjoint hname (mem_fixedNames_iff.2 hfixed)⟩
  · rintro ⟨hpath, hfixed⟩
    exact ⟨hpath, nodup_fixedNames route,
      fun name hname hmem => hfixed name hname (mem_fixedNames_iff.1 hmem)⟩

/-! ## Names from the path -/

theorem nodup_pathNames_iff {ps : List Parameter} :
    (pathNames ps).Nodup ↔ (Operation.placed (ps.filter fun p => p.place = .path)).Nodup := by
  have hplaced : Operation.placed (ps.filter fun p => p.place = .path) =
      (pathNames ps).map fun name => (name, Place.path) := by
    rw [Operation.placed, pathNames, List.map_map]
    apply List.map_congr_left
    intro p hp
    have hplace : p.place = .path := by simpa using List.of_mem_filter hp
    rw [hplace]
    rfl
  rw [hplaced]
  exact (List.nodup_map_iff fun a b h => (Prod.mk.inj h).1).symm

/-- Placeholders repeat no name: each one is bound once, and only if it is not yet. -/
theorem nodup_pathNames_bound {ps : List Parameter} (names : List String) :
    (pathNames (ps ++ (Operation.unbound ps names).map Operation.placeholderParameter)).Nodup ↔
      (pathNames ps).Nodup := by
  have happend : pathNames (ps ++ (Operation.unbound ps names).map Operation.placeholderParameter) =
      pathNames ps ++ Operation.unbound ps names := by
    simp [pathNames, List.filter_map, Operation.placeholderParameter, Function.comp_def]
  rw [happend, List.nodup_append']
  refine ⟨And.left, fun h => ⟨h, Operation.nodup_eraseDups _, fun name hname hunbound => ?_⟩⟩
  obtain ⟨-, hnot⟩ := Operation.mem_unbound_iff.1 hunbound
  obtain ⟨p, hp, rfl⟩ := List.mem_map.1 hname
  obtain ⟨hp, hplace⟩ := List.mem_filter.1 hp
  have hbinds : Operation.bindsName ps p.name = true :=
    List.any_eq_true.2 ⟨p, hp, by simpa using hplace⟩
  rw [hnot] at hbinds
  cases hbinds

/-- Without tags on them, the entries of parameters in the path repeat no name. -/
theorem nodup_pathNames_declared {root operation : Value} {shared : Option Value}
    (h : ∀ v ∈ Operation.unreplaced (Operation.entries root operation shared),
      (Operation.parameter? v).any (fun p => p.place = .path) → Operation.PlainlyPlaced v) :
    (pathNames (Operation.declaredParameters root operation shared)).Nodup :=
  nodup_pathNames_iff.2 (Operation.nodup_placed_filter _ h)

end Call

namespace Description

open Call

/-- The names of the arguments of a route differ exactly if the names from the path do
and none of these is a fixed one: the client, the options, the query parameters of a
route that has some or the payload of one that has it. The route is that of an operation
of the document, and the names from the path differ exactly if those do that entries of
the path and the operation give, whatever placeholders there are. So they differ if the
entries that give parameters in the path, and that no later entry replaces, have no tags
on name and place, and always if there are no tags in the document. -/
theorem nodup_arguments_iff {root : Value} {d : Description} {r : Route}
    (hd : ofValue root = .ok d) (hr : r ∈ d.routes) :
    ((Call.ofRoute r).request.arguments.all.Nodup ↔
        (pathNames r.parameters).Nodup ∧ ∀ name ∈ pathNames r.parameters, ¬IsFixed r name) ∧
      (∃ s : Spot, s.In root ∧ r = s.route root ∧
        ((pathNames r.parameters).Nodup ↔
          (pathNames (Operation.declaredParameters root s.operation s.shared)).Nodup) ∧
        ((∀ v ∈ Operation.unreplaced (Operation.entries root s.operation s.shared),
            (Operation.parameter? v).any (fun p => p.place = .path) → Operation.PlainlyPlaced v) →
          (pathNames r.parameters).Nodup)) ∧
      (Value.Untagged root → (pathNames r.parameters).Nodup) := by
  rw [routes_eq hd, ← map_route_spots] at hr
  obtain ⟨s, hs, rfl⟩ := List.mem_map.1 hr
  have hin : s.In root := mem_spots_iff.1 hs
  have hdeclared : (pathNames (s.route root).parameters).Nodup ↔
      (pathNames (Operation.declaredParameters root s.operation s.shared)).Nodup := by
    have hparameters : (s.route root).parameters = _ :=
      Operation.parameters_route_eq root s.method s.path s.operation s.shared
    rw [hparameters]
    exact nodup_pathNames_bound _
  refine ⟨nodup_arguments _, ⟨s, hin, rfl, hdeclared, fun hplain => ?_⟩, fun hroot => ?_⟩
  · exact hdeclared.2 (nodup_pathNames_declared hplain)
  · refine hdeclared.2 (nodup_pathNames_declared fun v hv _ => ?_)
    exact Operation.plainlyPlaced_of_untagged hroot hin ((Operation.unreplaced_sublist _).subset hv)

/-- A document with one operation. -/
def onePath (path : String) (operation : Value) : Value := .mapping [
  (.text "openapi", .text "3.0.0"),
  (.text "paths", .mapping [(.text path, .mapping [(.text "post", operation)])])]

/-- The route of that operation. -/
def oneRoute (path : String) (operation : Value) : Route :=
  Operation.route (onePath path operation) .post path operation none

theorem ofValue_onePath (path : String) (operation : Value) :
    ofValue (onePath path operation) = .ok ⟨none, "3.0.0", [oneRoute path operation]⟩ := rfl

/-- An operation with parameters in a list. -/
def withParameters (ps : List Value) : Value := .mapping [(.text "parameters", .list ps)]

/-- A parameter of a name and a place, which may be tagged values. -/
def parameterAt (name place : Value) : Value :=
  .mapping [(.text "name", name), (.text "in", place)]

/-- Two placeholders, one of them twice, and query parameters. -/
theorem nodup_arguments_iff_posts :
    let path := "/users/\x7buserId\x7d/posts/\x7bpostId\x7d/by/\x7buserId\x7d"
    let r := oneRoute path (withParameters [parameterAt (.text "draft") (.text "query")])
    (∃ root, Value.Untagged root ∧ ofValue root = .ok ⟨none, "3.0.0", [r]⟩) ∧
      (Call.ofRoute r).request.arguments.all =
        ["userId", "postId", "params", "kyInstance", "options"] ∧
      (Call.ofRoute r).request.arguments.all.Nodup := by
  intro path r
  let json : Json := .record [("openapi", .text "3.0.0"), ("paths", .record [(path, .record [
    ("post", .record [("parameters", .list [
      .record [("name", .text "draft"), ("in", .text "query")]])])])])]
  have hd : ofValue (.ofJson json) = .ok ⟨none, "3.0.0", [r]⟩ := rfl
  have huntagged : Value.Untagged (.ofJson json) := Value.untagged_ofJson json
  obtain ⟨hnodup, -, hnames⟩ := nodup_arguments_iff hd (List.mem_singleton_self _)
  refine ⟨⟨_, huntagged, hd⟩, by decide +kernel, hnodup.2 ⟨hnames huntagged, ?_⟩⟩
  have hnames : pathNames r.parameters = ["userId", "postId"] := by decide +kernel
  rw [hnames]
  simp [IsFixed]

/-- An operation with one parameter twice, the first time with a tag on its name. -/
def declaredTwice : Value := withParameters [
  parameterAt (.tagged "key" (.text "id")) (.text "path"), parameterAt (.text "id") (.text "path")]

theorem pathNames_declaredTwice :
    pathNames (oneRoute "/x/\x7bid\x7d" declaredTwice).parameters = ["id", "id"] := by
  have hentries : Operation.entries (onePath "/x/\x7bid\x7d" declaredTwice) declaredTwice none =
      [parameterAt (.tagged "key" (.text "id")) (.text "path"),
        parameterAt (.text "id") (.text "path")] := rfl
  have hboth : Operation.unreplaced
      (Operation.entries (onePath "/x/\x7bid\x7d" declaredTwice) declaredTwice none) =
        [parameterAt (.tagged "key" (.text "id")) (.text "path"),
          parameterAt (.text "id") (.text "path")] := by
    simp [hentries, parameterAt, Operation.unreplaced, Operation.samePlace, Value.get?,
      Value.untag, Value.find?, Value.sameOption, Value.same]
  rw [oneRoute, Operation.parameters_route_eq, Operation.declaredParameters, hboth]
  decide +kernel

/-- Each fixed name in the path, those of groups with a group, and a name that is
declared with and without a tag. -/
theorem arguments_repeat :
    [("/x/\x7bkyInstance\x7d", Value.null), ("/x/\x7boptions\x7d", .null),
      ("/x/\x7bparams\x7d", withParameters [parameterAt (.text "q") (.text "query")]),
      ("/x/\x7bpayload\x7d", withParameters [parameterAt (.text "b") (.text "body")])].map
        (fun (path, operation) =>
          (Call.ofRoute (oneRoute path operation)).request.arguments.all) =
      [["kyInstance", "kyInstance", "options"], ["options", "kyInstance", "options"],
        ["params", "params", "kyInstance", "options"],
        ["payload", "payload", "kyInstance", "options"]] ∧
    ¬(Call.ofRoute (oneRoute "/x/\x7bid\x7d" declaredTwice)).request.arguments.all.Nodup ∧
    ¬∀ root d, ofValue root = .ok d → ∀ r ∈ d.routes,
      (Call.ofRoute r).request.arguments.all.Nodup := by
  refine ⟨by decide +kernel, fun h => ?_, fun h => ?_⟩
  · have hdiffer := ((nodup_arguments _).1 h).1
    rw [pathNames_declaredTwice] at hdiffer
    exact absurd hdiffer (by decide)
  · have hdiffer := h _ _ (ofValue_onePath "/x/\x7boptions\x7d" .null) _ (List.mem_singleton_self _)
    exact absurd hdiffer (by decide +kernel)

end Description

end ClientRoutes
