import ClientRoutes.Proofs.Description.Parameters
import ClientRoutes.Proofs.Text.Edit
import Mathlib.Data.List.Nodup

/-
  Which parameters the route of an operation has.

  The entries of the path and of the operation are merged one by one, a later one
  in place of an earlier one, and then the placeholders of the path are bound one
  by one. Both rounds have a closed form: the entries that no later one replaces,
  and the placeholders that are not bound, each once.

  What is proved:
    1. `foldl_declare`, `parameters_bindAll` — the closed forms of the two rounds.
    2. `parameters_route_eq` — the parameters of a route, from its entries and its
       path.
    3. `parameters_merged` — besides, every placeholder is bound, no parameter in
       the path is optional, and without tags on names and places no two
       parameters agree in both.
    4. `parameters_repeat` — with a tag on a name two parameters can agree.
-/

namespace ClientRoutes.Operation

/-! ## Entries -/

/-- The entries of the path and of the operation, references followed. -/
def entries (root operation : Value) (shared : Option Value) : List Value :=
  listed root shared ++ listed root (operation.get? "parameters")

/-- The entries that no later entry replaces. -/
def unreplaced : List Value → List Value
  | [] => []
  | v :: rest => if rest.any (samePlace v) then unreplaced rest else v :: unreplaced rest

theorem unreplaced_sublist (vs : List Value) : (unreplaced vs).Sublist vs := by
  induction vs with
  | nil => exact .slnil
  | cons v rest ih =>
    rw [unreplaced]
    split
    · exact ih.cons v
    · exact ih.cons_cons v

/-- Declaring entries one by one keeps those that no later one replaces. -/
theorem foldl_declare (vs earlier : List Value) :
    vs.foldl declare earlier =
      earlier.filter (fun v => !vs.any (samePlace v)) ++ unreplaced vs := by
  induction vs generalizing earlier with
  | nil => simp [unreplaced]
  | cons v rest ih =>
    rw [List.foldl_cons, ih, declare, List.filter_append, List.filter_filter, unreplaced,
      List.append_assoc]
    congr 1
    · apply List.filter_congr
      intro w _
      rw [List.any_cons, Bool.not_or, Bool.and_comm]
    · rw [List.filter_singleton]
      cases rest.any (samePlace v) <;> rfl

theorem declared_eq (root operation : Value) (shared : Option Value) :
    declared root operation shared = unreplaced (entries root operation shared) := by
  rw [declared, foldl_declare]
  rfl

theorem pairwise_unreplaced (vs : List Value) :
    (unreplaced vs).Pairwise fun v w => samePlace v w = false := by
  induction vs with
  | nil => exact .nil
  | cons v rest ih =>
    rw [unreplaced]
    split
    · exact ih
    · next hany =>
      refine List.pairwise_cons.2 ⟨?_, ih⟩
      intro w hw
      rw [Bool.not_eq_true, List.any_eq_false] at hany
      simpa using hany w ((unreplaced_sublist rest).subset hw)

/-! ## What an entry says -/

/-- The word that stands for a place. -/
def placeWord : Place → String
  | .path => "path"
  | .query => "query"
  | .header => "header"

theorem place?_eq_some_iff {v : Value} {place : Place} :
    place? v = some place ↔ v.textAt? "in" = some (placeWord place) := by
  unfold place?
  cases place <;> split <;> simp_all [placeWord]

theorem parameter?_eq_some_iff {v : Value} {p : Parameter} :
    parameter? v = some p ↔
      v.textAt? "name" = some p.name ∧ v.textAt? "in" = some (placeWord p.place) ∧
        p.type = Schema.typeName ((v.get? "schema").getD v) ∧
        p.optional = (!isRequired v && p.place != .path) := by
  unfold parameter?
  rw [← place?_eq_some_iff]
  constructor
  · intro h
    obtain ⟨name, hname, h⟩ := Option.bind_eq_some_iff.1 h
    obtain ⟨place, hplace, h⟩ := Option.bind_eq_some_iff.1 h
    obtain rfl := Option.some.inj h
    exact ⟨hname, hplace, rfl, rfl⟩
  · rintro ⟨hname, hplace, htype, hoptional⟩
    obtain ⟨name, type, optional, place⟩ := p
    dsimp only at hname hplace htype hoptional
    subst htype hoptional
    rw [hname, hplace]
    rfl

/-- Whether a value has a tag. -/
def isTagged : Value → Bool
  | .tagged .. => true
  | _ => false

/-- The name and the place of an entry are written without tags. -/
def PlainlyPlaced (v : Value) : Prop :=
  ∀ key ∈ ["name", "in"], (v.get? key).any isTagged = false

instance : DecidablePred PlainlyPlaced :=
  fun v => inferInstanceAs (Decidable (∀ key ∈ ["name", "in"], (v.get? key).any isTagged = false))

theorem eq_text_of_text? {v : Value} {s : String} (h : v.text? = some s)
    (hplain : isTagged v = false) : v = .text s := by
  cases v with
  | tagged tag w => cases hplain
  | text t => rw [Option.some.inj h]
  | _ => cases h

theorem get?_of_textAt? {v : Value} {key s : String} (h : v.textAt? key = some s)
    (hplain : (v.get? key).any isTagged = false) : v.get? key = some (.text s) := by
  obtain ⟨w, hw, ht⟩ := Option.bind_eq_some_iff.1 h
  rw [hw] at hplain
  rw [hw, eq_text_of_text? ht hplain]

/-- Entries without tags that read as the same name and place have the same name
and place. -/
theorem samePlace_of_parameter? {v w : Value} {p q : Parameter} (hv : PlainlyPlaced v)
    (hw : PlainlyPlaced w) (hp : parameter? v = some p) (hq : parameter? w = some q)
    (hname : p.name = q.name) (hplace : p.place = q.place) : samePlace v w = true := by
  obtain ⟨hvname, hvplace, -, -⟩ := parameter?_eq_some_iff.1 hp
  obtain ⟨hwname, hwplace, -, -⟩ := parameter?_eq_some_iff.1 hq
  rw [samePlace, get?_of_textAt? hvname (hv "name" (by simp)),
    get?_of_textAt? hwname (hw "name" (by simp)), get?_of_textAt? hvplace (hv "in" (by simp)),
    get?_of_textAt? hwplace (hw "in" (by simp)), hname, hplace]
  simp [Value.sameOption, Value.same]

/-! ## Placeholders -/

/-- The parameter that is made for a placeholder. -/
def placeholderParameter (name : String) : Parameter := ⟨name, "string", false, .path⟩

/-- Whether a parameter of some name stands in the path. -/
def bindsName (ps : List Parameter) (name : String) : Bool :=
  ps.any fun p => p.place = .path && p.name == name

/-- The names that no parameter in the path has, each once. -/
def unbound (ps : List Parameter) (names : List String) : List String :=
  (names.filter fun name => !bindsName ps name).eraseDups

theorem bind_eq (r : Route) (name : String) :
    bind r name =
      if bindsName r.parameters name then r else r.addParameter (placeholderParameter name) := by
  rw [bind, Route.pathParameters, List.any_filter]
  rfl

theorem bindsName_append (ps : List Parameter) (name other : String) :
    bindsName (ps ++ [placeholderParameter name]) other = (bindsName ps other || name == other) := by
  simp [bindsName, placeholderParameter]

theorem unbound_cons (ps : List Parameter) (name : String) (rest : List String) :
    unbound ps (name :: rest) =
      if bindsName ps name then unbound ps rest
      else name :: unbound (ps ++ [placeholderParameter name]) rest := by
  unfold unbound
  rw [List.filter_cons]
  cases hb : bindsName ps name with
  | true => rfl
  | false =>
    have hrest : ∀ other ∈ rest, (!other == name && !bindsName ps other) =
        !bindsName (ps ++ [placeholderParameter name]) other := by
      intro other _
      rw [bindsName_append, Bool.not_or, Bool.and_comm, Bool.beq_comm]
    simp only [Bool.not_false, if_true, List.eraseDups_cons, List.filter_filter,
      List.filter_congr hrest]
    rfl

/-- Binding placeholders one by one adds a parameter for each one that is not
bound yet. -/
theorem parameters_bindAll (names : List String) (r : Route) :
    (names.foldl bind r).parameters =
      r.parameters ++ (unbound r.parameters names).map placeholderParameter := by
  induction names generalizing r with
  | nil => simp [unbound]
  | cons name rest ih =>
    rw [List.foldl_cons, ih, bind_eq, unbound_cons]
    split
    · rfl
    · simp [Route.addParameter]

theorem nodup_eraseDups (names : List String) : names.eraseDups.Nodup := by
  match names with
  | [] => exact .nil
  | name :: rest =>
    rw [List.eraseDups_cons, List.nodup_cons, List.mem_eraseDups]
    exact ⟨by simp, nodup_eraseDups (rest.filter fun other => !other == name)⟩
termination_by names.length
decreasing_by
  exact Nat.lt_succ_of_le (List.length_filter_le _ _)

theorem mem_unbound_iff {ps : List Parameter} {names : List String} {name : String} :
    name ∈ unbound ps names ↔ name ∈ names ∧ bindsName ps name = false := by
  rw [unbound, List.mem_eraseDups, List.mem_filter, Bool.not_eq_true']

/-- The placeholders of a path are its parts in braces. -/
theorem mem_placeholders_iff {path name : String} :
    name ∈ Template.placeholders path ↔ "\x7b" ++ name ++ "\x7d" ∈ Template.parts path := by
  have hpart : ∀ part, Template.placeholder? part = some name ↔ part = "\x7b" ++ name ++ "\x7d" := by
    intro part
    simp only [Template.placeholder?, Option.bind_eq_some_iff, Text.stripPrefix?_eq_some_iff,
      Text.stripSuffix?_eq_some_iff]
    constructor
    · rintro ⟨rest, rfl, rfl⟩
      exact (String.append_assoc ..).symm
    · rintro rfl
      exact ⟨name ++ "\x7d", String.append_assoc .., rfl⟩
  simp only [Template.placeholders, List.mem_filterMap, hpart, exists_eq_right]

/-! ## The parameters of a route -/

theorem parameters_addParameters (ps : List Parameter) (r : Route) :
    (ps.foldl Route.addParameter r).parameters = r.parameters ++ ps := by
  induction ps generalizing r with
  | nil => simp
  | cons p rest ih =>
    rw [List.foldl_cons, ih]
    simp [Route.addParameter]

/-- The parameters that the entries of an operation give. -/
def declaredParameters (root operation : Value) (shared : Option Value) : List Parameter :=
  (unreplaced (entries root operation shared)).filterMap parameter?

theorem parameters_declaredRoute (root : Value) (method : Method) (path : String)
    (operation : Value) (shared : Option Value) :
    (declaredRoute root method path operation shared).parameters =
      declaredParameters root operation shared := by
  rw [declaredRoute, parameters_addParameters, declared_eq]
  rfl

theorem parameters_route_eq (root : Value) (method : Method) (path : String) (operation : Value)
    (shared : Option Value) :
    (route root method path operation shared).parameters =
      declaredParameters root operation shared ++
        (unbound (declaredParameters root operation shared) (Template.placeholders path)).map
          placeholderParameter := by
  rw [parameters_route, parameters_bindAll, parameters_declaredRoute]

/-- The names and places of parameters. -/
def placed (ps : List Parameter) : List (String × Place) := ps.map fun p => (p.name, p.place)

theorem bindsName_eq_true_iff {ps : List Parameter} {name : String} :
    bindsName ps name = true ↔ (name, Place.path) ∈ placed ps := by
  simp [bindsName, placed, and_comm]

theorem mem_placed_of_placeholder (ps : List Parameter) {names : List String} {name : String}
    (h : name ∈ names) :
    (name, Place.path) ∈ placed (ps ++ (unbound ps names).map placeholderParameter) := by
  rw [placed, List.map_append, List.mem_append]
  cases hb : bindsName ps name with
  | true => exact .inl (bindsName_eq_true_iff.1 hb)
  | false =>
    right
    rw [List.map_map]
    exact List.mem_map.2 ⟨name, mem_unbound_iff.2 ⟨h, hb⟩, rfl⟩

/-- Without tags, the entries that no later one replaces give parameters that differ in
name or place; about some parameters it is enough that their own entries have none. -/
theorem nodup_placed_filter {root operation : Value} {shared : Option Value} (p : Parameter → Bool)
    (h : ∀ v ∈ unreplaced (entries root operation shared), (parameter? v).any p → PlainlyPlaced v) :
    (placed ((declaredParameters root operation shared).filter p)).Nodup := by
  rw [placed, declaredParameters, List.filter_filterMap, List.Nodup, List.pairwise_map,
    List.pairwise_filterMap]
  refine (pairwise_unreplaced _).imp_of_mem ?_
  intro v w hv hw hdiffer q hq q' hq' heq
  obtain ⟨hq, hpq⟩ := Option.filter_eq_some_iff.1 hq
  obtain ⟨hq', hpq'⟩ := Option.filter_eq_some_iff.1 hq'
  obtain ⟨hname, hplace⟩ := Prod.mk.inj heq
  have hsame := samePlace_of_parameter? (h v hv (by simp [hq, hpq])) (h w hw (by simp [hq', hpq']))
    hq hq' hname hplace
  rw [hdiffer] at hsame
  cases hsame

theorem nodup_placed_declared {root operation : Value} {shared : Option Value}
    (h : ∀ v ∈ unreplaced (entries root operation shared), (parameter? v).isSome →
      PlainlyPlaced v) :
    (placed (declaredParameters root operation shared)).Nodup := by
  have hall := nodup_placed_filter (fun _ => true) fun v hv hsome =>
    h v hv (Option.isSome_of_any hsome)
  rwa [List.filter_true] at hall

theorem nodup_placed_bound {ps : List Parameter} (h : (placed ps).Nodup) (names : List String) :
    (placed (ps ++ (unbound ps names).map placeholderParameter)).Nodup := by
  rw [placed, List.map_append, List.map_map]
  refine List.nodup_append.2 ⟨h, ?_, ?_⟩
  · exact (nodup_eraseDups _).map fun a b heq => (Prod.mk.inj heq).1
  · rintro e he f hf rfl
    obtain ⟨name, hname, rfl⟩ := List.mem_map.1 hf
    have hbound : bindsName ps name = true := bindsName_eq_true_iff.2 he
    rw [(mem_unbound_iff.1 hname).2] at hbound
    cases hbound

/-- The parameters of a route are those of the entries that no later entry of the
same name and place replaces, and behind them one of type `string` for every
placeholder of the path that has none. A parameter comes from an entry with a name
and one of three places. Every placeholder is bound, and no parameter in the path
is optional. If no entry that gives a parameter has a tag on its name or place,
no two parameters have the same name and place, so every placeholder is bound
once. -/
theorem parameters_merged (root : Value) (method : Method) (path : String) (operation : Value)
    (shared : Option Value) :
    let r := route root method path operation shared
    (r.parameters = declaredParameters root operation shared ++
        (unbound (declaredParameters root operation shared) (Template.placeholders path)).map
          placeholderParameter) ∧
      (∀ v p, parameter? v = some p ↔
        v.textAt? "name" = some p.name ∧ v.textAt? "in" = some (placeWord p.place) ∧
          p.type = Schema.typeName ((v.get? "schema").getD v) ∧
          p.optional = (!isRequired v && p.place != .path)) ∧
      (∀ p ∈ r.parameters, p.place = .path → p.optional = false) ∧
      (∀ name, "\x7b" ++ name ++ "\x7d" ∈ Template.parts path →
        (name, Place.path) ∈ placed r.parameters) ∧
      ((∀ v ∈ unreplaced (entries root operation shared), (parameter? v).isSome →
          PlainlyPlaced v) →
        (placed r.parameters).Nodup ∧
        ∀ name, "\x7b" ++ name ++ "\x7d" ∈ Template.parts path →
          (placed r.parameters).count (name, Place.path) = 1) := by
  intro r
  have hr : r.parameters = _ := parameters_route_eq root method path operation shared
  have hbound : ∀ name, "\x7b" ++ name ++ "\x7d" ∈ Template.parts path →
      (name, Place.path) ∈ placed r.parameters := by
    intro name hname
    rw [hr]
    exact mem_placed_of_placeholder _ (mem_placeholders_iff.2 hname)
  refine ⟨hr, fun v p => parameter?_eq_some_iff, pathRequired_route root method path operation shared,
    hbound, ?_⟩
  intro hplain
  have hnodup : (placed r.parameters).Nodup := by
    rw [hr]
    exact nodup_placed_bound (nodup_placed_declared hplain) _
  exact ⟨hnodup, fun name hname => List.count_eq_one_of_mem hnodup (hbound name hname)⟩

/-- A document with a parameter that others refer to. -/
def commonDocument : Value := .mapping [
  (.text "common", .mapping [(.text "limit", .mapping [
    (.text "name", .text "limit"), (.text "in", .text "query"), (.text "required", .bool true)])])]

/-- Two parameters that a path shares, the first one by reference. -/
def sharedParameters : Value := .list [
  .mapping [(.text "$ref", .text "#/common/limit")],
  .mapping [(.text "name", .text "owner"), (.text "in", .text "path")]]

/-- An operation that replaces the parameter behind the reference. -/
def limitOperation : Value := .mapping [(.text "parameters", .list [
  .mapping [(.text "name", .text "limit"), (.text "in", .text "query"), (.text "type", .text "integer")],
  .mapping [(.text "name", .text "size"), (.text "in", .text "body")]])]

theorem unreplaced_limit :
    unreplaced (entries commonDocument limitOperation (some sharedParameters)) =
      [.mapping [(.text "name", .text "owner"), (.text "in", .text "path")],
        .mapping [(.text "name", .text "limit"), (.text "in", .text "query"),
          (.text "type", .text "integer")],
        .mapping [(.text "name", .text "size"), (.text "in", .text "body")]] := by
  have hentries : entries commonDocument limitOperation (some sharedParameters) =
      [.mapping [(.text "name", .text "limit"), (.text "in", .text "query"),
          (.text "required", .bool true)],
        .mapping [(.text "name", .text "owner"), (.text "in", .text "path")],
        .mapping [(.text "name", .text "limit"), (.text "in", .text "query"),
          (.text "type", .text "integer")],
        .mapping [(.text "name", .text "size"), (.text "in", .text "body")]] := rfl
  simp [hentries, unreplaced, samePlace, Value.get?, Value.untag, Value.find?, Value.sameOption,
    Value.same]

/-- Of two parameters named `limit` the later one counts, and a placeholder that
occurs twice is bound once. -/
theorem parameters_merged_limit :
    (route commonDocument .get "/\x7bowner\x7d/\x7bid\x7d/\x7bid\x7d" limitOperation
        (some sharedParameters)).parameters =
      [⟨"owner", "any", false, .path⟩, ⟨"limit", "number", true, .query⟩,
        ⟨"id", "string", false, .path⟩] ∧
      (placed (route commonDocument .get "/\x7bowner\x7d/\x7bid\x7d/\x7bid\x7d" limitOperation
        (some sharedParameters)).parameters).count ("id", .path) = 1 := by
  obtain ⟨hall, -, -, -, hplain⟩ := parameters_merged commonDocument .get
    "/\x7bowner\x7d/\x7bid\x7d/\x7bid\x7d" limitOperation (some sharedParameters)
  rw [unreplaced_limit] at hplain
  refine ⟨?_, (hplain (by decide +kernel)).2 "id" (by decide +kernel)⟩
  rw [hall, declaredParameters, unreplaced_limit]
  decide +kernel

/-- An operation with two parameters `id` in the path, the first name under a tag. -/
def taggedOperation : Value := .mapping [(.text "parameters", .list [
  .mapping [(.text "name", .tagged "key" (.text "id")), (.text "in", .text "path")],
  .mapping [(.text "name", .text "id"), (.text "in", .text "path")]])]

/-- A name under a tag is another value than the same name without it, but it reads
as the same text. -/
theorem parameters_repeat :
    (route (.mapping []) .get "/pets/\x7bid\x7d" taggedOperation none).parameters =
        [⟨"id", "any", false, .path⟩, ⟨"id", "any", false, .path⟩] ∧
      ¬(placed (route (.mapping []) .get "/pets/\x7bid\x7d" taggedOperation
        none).parameters).Nodup ∧
      (placed (route (.mapping []) .get "/pets/\x7bid\x7d" taggedOperation
        none).parameters).count ("id", .path) = 2 := by
  have hentries : entries (.mapping []) taggedOperation none =
      [.mapping [(.text "name", .tagged "key" (.text "id")), (.text "in", .text "path")],
        .mapping [(.text "name", .text "id"), (.text "in", .text "path")]] := rfl
  have hboth : unreplaced (entries (.mapping []) taggedOperation none) =
      entries (.mapping []) taggedOperation none := by
    simp [hentries, unreplaced, samePlace, Value.get?, Value.untag, Value.find?, Value.sameOption,
      Value.same]
  have hparameters : (route (.mapping []) .get "/pets/\x7bid\x7d" taggedOperation
      none).parameters = [⟨"id", "any", false, .path⟩, ⟨"id", "any", false, .path⟩] := by
    rw [parameters_route_eq, declaredParameters, hboth]
    decide +kernel
  rw [hparameters]
  decide

end ClientRoutes.Operation
