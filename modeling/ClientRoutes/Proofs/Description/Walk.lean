import ClientRoutes.Proofs.Description.Parameters
import ClientRoutes.Proofs.Route.Additions
import ClientRoutes.Proofs.Text.Edit
import Mathlib.Data.List.Basic

/-
  The walk through a document.

  The routes of a description are the operations of the document, in the order in
  which they stand there. An operation stands in an entry of `paths` whose key is a
  text, under a key that names a method; a path item may be a reference. What the
  operation itself says decides neither whether there is a description nor whether
  there is a route.

  Keys and mappings count with and without tags, as everywhere; a version under a tag
  does not count.

  What is proved:
    1. `exists_additions` — the route of an operation is built by additions to a new
       route of its method and path.
    2. `resolve_eq_iff`, `ofText?_eq_some_iff` — what a value stands for, and which
       texts name a method.
    3. `mem_spots_iff`, `pairwise_spots` — the spots of a document are all its
       operations, each once and in order.
    4. `exists_error_iff` — the documents without a description.
    5. `routes_ofValue` — a description has one route for every spot.
-/

namespace ClientRoutes

/-! ## The route of an operation -/

namespace Operation

open Route (Addition)

/-- One route is another one after some additions. -/
def Grows (r s : Route) : Prop := ∃ additions : List Addition, s = additions.foldl Route.add r

theorem Grows.refl (r : Route) : Grows r r := ⟨[], rfl⟩

theorem Grows.add (r : Route) (a : Addition) : Grows r (r.add a) := ⟨[a], rfl⟩

theorem Grows.trans {r s t : Route} (hrs : Grows r s) (hst : Grows s t) : Grows r t := by
  obtain ⟨first, rfl⟩ := hrs
  obtain ⟨second, rfl⟩ := hst
  exact ⟨first ++ second, List.foldl_append.symm⟩

theorem Grows.foldl {α : Type} {f : Route → α → Route} (h : ∀ r a, Grows r (f r a)) (as : List α)
    (r : Route) : Grows r (as.foldl f r) := by
  induction as generalizing r with
  | nil => exact .refl r
  | cons a rest ih => exact (h r a).trans (ih (f r a))

theorem grows_bind (r : Route) (placeholder : String) : Grows r (bind r placeholder) := by
  unfold bind
  split
  · exact .refl r
  · exact .add r (.parameter ⟨placeholder, "string", false, .path⟩)

theorem grows_addResponse (root : Value) (r : Route) (e : String × Value) :
    Grows r (addResponse root r e.1 e.2) := by
  unfold addResponse
  split
  · exact .add r (.response _ _ _)
  · exact .add r (.response _ _ _)

theorem grows_payload (r : Route) (content : Option Content) :
    Grows r (match content with
      | some c => r.setPayload c.type c.optional c.shape
      | none => r) := by
  cases content with
  | some c => exact .add r (.payload _ _ _)
  | none => exact .refl r

/-- The route of an operation is a new route of its method and path with additions. -/
theorem exists_additions (root : Value) (method : Method) (path : String) (operation : Value)
    (shared : Option Value) :
    ∃ additions, route root method path operation shared =
      Route.build method path (module operation path) additions := by
  -- In the order of the text: names, declared parameters, placeholders, body, responses.
  have hnamed : Grows (Route.new method path (module operation path))
      (((Route.new method path (module operation path)).setOperationId
        (operation.textAt? "operationId")).setExtensions (extensions operation)) :=
    (Grows.add _ (.operationId _)).trans (.add _ (.extensions _))
  have hdeclared := hnamed.trans (.foldl (fun r p => .add r (.parameter p))
    ((declared root operation shared).filterMap parameter?) _)
  have hbound := hdeclared.trans (.foldl grows_bind (Template.placeholders path) _)
  have hpayload := hbound.trans
    (grows_payload _ (content? root operation (declared root operation shared)))
  exact hpayload.trans (.foldl (grows_addResponse root) (responses operation) _)

theorem method_route (root : Value) (method : Method) (path : String) (operation : Value)
    (shared : Option Value) : (route root method path operation shared).method = method := by
  obtain ⟨additions, h⟩ := exists_additions root method path operation shared
  rw [h, Route.method_build]

end Operation

/-! ## References -/

namespace Pointer

/-- A value is a local reference, and another one lies under its keys. -/
def Leads (root v target : Value) : Prop :=
  ∃ pointer, v.textAt? "$ref" = some ("#/" ++ pointer) ∧
    follow? root (keys pointer) = some target

/-- A value stands for what it leads to, and for itself if it leads nowhere. One
reference is followed: what it leads to may be a reference again. -/
def StandsFor (root v target : Value) : Prop :=
  Leads root v target ∨ (∀ w, ¬Leads root v w) ∧ target = v

theorem ofValue?_eq_some_iff {v : Value} {pointer : String} :
    ofValue? v = some pointer ↔ v.textAt? "$ref" = some ("#/" ++ pointer) := by
  simp only [ofValue?, Option.bind_eq_some_iff, Text.stripPrefix?_eq_some_iff, exists_eq_right]

theorem leads_iff {root v target : Value} :
    Leads root v target ↔
      (ofValue? v).bind (fun pointer => follow? root (keys pointer)) = some target := by
  simp only [Leads, Option.bind_eq_some_iff, ofValue?_eq_some_iff]

theorem resolve_eq_iff {root v target : Value} :
    resolve root v = target ↔ StandsFor root v target := by
  have hresolve : resolve root v =
      ((ofValue? v).bind fun pointer => follow? root (keys pointer)).getD v := by
    unfold resolve
    cases ofValue? v <;> rfl
  simp only [StandsFor, leads_iff, hresolve]
  cases (ofValue? v).bind fun pointer => follow? root (keys pointer) with
  | none => simp [eq_comm]
  | some w => simp

end Pointer

/-! ## Names of methods -/

namespace Method

/-- A text names a method if it is the name of the method in letters of any case. -/
theorem ofText?_eq_some_iff {s : String} {m : Method} :
    ofText? s = some m ↔ Text.sameIgnoringCase m.name s = true := by
  have hnames : ∀ m n : Method,
      m.name.toList.map Char.toLower = n.name.toList.map Char.toLower → m = n := by
    intro m n
    cases m <;> cases n <;> decide
  unfold ofText?
  constructor
  · exact List.find?_some
  · intro h
    cases hfind : all.find? fun n => Text.sameIgnoringCase n.name s with
    | none => exact absurd h (List.find?_eq_none.1 hfind m (mem_all m))
    | some n =>
      have hn := List.find?_some hfind
      simp only [Text.sameIgnoringCase, beq_iff_eq] at h hn
      rw [hnames n m (hn.trans h.symm)]

end Method

namespace Description

/-! ## Spots -/

/-- An operation and where it stands: the position of its path among all paths, and
its own position in the path item. -/
structure Spot where
  pathIndex : Nat
  index : Nat
  path : String
  method : Method
  operation : Value
  /-- The parameters that the path item shares among its operations. -/
  shared : Option Value

namespace Spot

/-- The route of a spot. -/
def route (root : Value) (s : Spot) : Route :=
  Operation.route root s.method s.path s.operation s.shared

/-- The order of a document. -/
def Before (s t : Spot) : Prop :=
  s.pathIndex < t.pathIndex ∨ s.pathIndex = t.pathIndex ∧ s.index < t.index

/-- A path item, or what it stands for, has an operation at the position of a spot,
under a key that names its method in letters of any case. -/
def Under (s : Spot) (root item : Value) : Prop :=
  ∃ target members key name,
    Pointer.StandsFor root item target ∧ target.get? "parameters" = s.shared ∧
      target.entries? = some members ∧ members[s.index]? = some (key, s.operation) ∧
      key.text? = some name ∧ Text.sameIgnoringCase s.method.name name = true

/-- A document has an operation at a spot, below the entry of `paths` at its first
position, which has its path as key. -/
def In (s : Spot) (root : Value) : Prop :=
  ∃ paths key item,
    (root.get? "paths").bind Value.entries? = some paths ∧
      paths[s.pathIndex]? = some (key, item) ∧ key.text? = some s.path ∧ s.Under root item

end Spot

/-- The spots of one path. -/
def pathSpots (root : Value) (pathIndex : Nat) (path : String) (item : Value) : List Spot :=
  let item := Pointer.resolve root item
  (item.entries?.getD []).zipIdx.filterMap fun (e, index) =>
    (method? e.1).map fun method =>
      ⟨pathIndex, index, path, method, e.2, item.get? "parameters"⟩

/-- The spots of some paths. -/
def spots (root : Value) (paths : List (Value × Value)) : List Spot :=
  paths.zipIdx.flatMap fun (e, pathIndex) =>
    match e.1.text? with
    | some path => pathSpots root pathIndex path e.2
    | none => []

theorem method?_eq_some_iff {key : Value} {m : Method} :
    method? key = some m ↔
      ∃ name, key.text? = some name ∧ Text.sameIgnoringCase m.name name = true := by
  simp only [method?, Option.bind_eq_some_iff, Method.ofText?_eq_some_iff]

theorem mem_pathSpots_iff {root item : Value} {pathIndex : Nat} {path : String} {s : Spot} :
    s ∈ pathSpots root pathIndex path item ↔
      s.pathIndex = pathIndex ∧ s.path = path ∧ s.Under root item := by
  unfold pathSpots Spot.Under
  rw [List.mem_filterMap]
  constructor
  · rintro ⟨⟨⟨key, operation⟩, index⟩, hmem, hspot⟩
    obtain ⟨method, hmethod, rfl⟩ := Option.map_eq_some_iff.1 hspot
    obtain ⟨name, hname, hsame⟩ := method?_eq_some_iff.1 hmethod
    have hat := List.mk_mem_zipIdx_iff_getElem?.1 hmem
    cases hentries : (Pointer.resolve root item).entries? with
    | none => simp [hentries] at hat
    | some members =>
      rw [hentries] at hat
      exact ⟨rfl, rfl, _, members, key, name, Pointer.resolve_eq_iff.1 rfl, rfl, hentries, hat,
        hname, hsame⟩
  · rintro ⟨rfl, rfl, target, members, key, name, htarget, hshared, hentries, hat, hname, hsame⟩
    obtain rfl := Pointer.resolve_eq_iff.2 htarget
    refine ⟨((key, s.operation), s.index), ?_, ?_⟩
    · rw [hentries]
      exact List.mk_mem_zipIdx_iff_getElem?.2 hat
    · dsimp only
      rw [method?_eq_some_iff.2 ⟨name, hname, hsame⟩, hshared]
      rfl

/-- The entries of `paths`, none if there is no such mapping. -/
def pathEntries (root : Value) : List (Value × Value) :=
  ((root.get? "paths").bind Value.entries?).getD []

theorem mem_spots_iff {root : Value} {s : Spot} : s ∈ spots root (pathEntries root) ↔ s.In root := by
  unfold spots Spot.In
  rw [List.mem_flatMap]
  constructor
  · rintro ⟨⟨⟨key, item⟩, pathIndex⟩, hmem, hs⟩
    have hat := List.mk_mem_zipIdx_iff_getElem?.1 hmem
    unfold pathEntries at hat
    cases hpaths : (root.get? "paths").bind Value.entries? with
    | none => simp [hpaths] at hat
    | some paths =>
      rw [hpaths] at hat
      cases hkey : key.text? with
      | none => simp [hkey] at hs
      | some path =>
        simp only [hkey] at hs
        obtain ⟨rfl, rfl, hunder⟩ := mem_pathSpots_iff.1 hs
        exact ⟨paths, key, item, rfl, hat, hkey, hunder⟩
  · rintro ⟨paths, key, item, hpaths, hat, hkey, hunder⟩
    refine ⟨((key, item), s.pathIndex), ?_, ?_⟩
    · rw [pathEntries, hpaths]
      exact List.mk_mem_zipIdx_iff_getElem?.2 hat
    · simp only [hkey]
      exact mem_pathSpots_iff.2 ⟨rfl, rfl, hunder⟩

/-! ## Their order -/

theorem pairwise_zipIdx {α : Type} (l : List α) : l.zipIdx.Pairwise fun a b => a.2 < b.2 := by
  have h := List.pairwise_lt_range' (s := 0) (n := l.length) 1
  rw [← List.zipIdx_map_snd] at h
  exact List.pairwise_map.1 h

theorem pairwise_pathSpots (root : Value) (pathIndex : Nat) (path : String) (item : Value) :
    (pathSpots root pathIndex path item).Pairwise Spot.Before := by
  unfold pathSpots
  rw [List.pairwise_filterMap]
  refine (pairwise_zipIdx _).imp ?_
  intro a b hab s hs t ht
  obtain ⟨_, -, rfl⟩ := Option.map_eq_some_iff.1 hs
  obtain ⟨_, -, rfl⟩ := Option.map_eq_some_iff.1 ht
  exact .inr ⟨rfl, hab⟩

theorem pairwise_spots (root : Value) (paths : List (Value × Value)) :
    (spots root paths).Pairwise Spot.Before := by
  unfold spots
  rw [List.pairwise_flatMap]
  constructor
  · rintro ⟨⟨key, item⟩, pathIndex⟩ -
    dsimp only
    split
    · exact pairwise_pathSpots root pathIndex _ item
    · exact .nil
  · refine (pairwise_zipIdx paths).imp ?_
    rintro ⟨⟨key, item⟩, i⟩ ⟨⟨key', item'⟩, j⟩ hij s hs t ht
    -- A spot has the position of its path, so spots of different paths are ordered by it.
    have hfirst : s.pathIndex = i := by
      cases hkey : key.text? with
      | none => simp [hkey] at hs
      | some path => simp only [hkey] at hs; exact (mem_pathSpots_iff.1 hs).1
    have hsecond : t.pathIndex = j := by
      cases hkey : key'.text? with
      | none => simp [hkey] at ht
      | some path => simp only [hkey] at ht; exact (mem_pathSpots_iff.1 ht).1
    left
    rw [hfirst, hsecond]
    exact hij

/-! ## Their routes -/

theorem map_route_pathSpots (root : Value) (pathIndex : Nat) (path : String) (item : Value) :
    (pathSpots root pathIndex path item).map (Spot.route root) = pathRoutes root path item := by
  unfold pathSpots pathRoutes
  dsimp only
  rw [List.map_filterMap]
  -- The positions are dropped again.
  conv_rhs => rw [← List.zipIdx_map_fst 0 ((Pointer.resolve root item).entries?.getD []),
    List.filterMap_map]
  apply List.filterMap_congr
  intro e _
  exact Option.map_map _ _ _

theorem map_route_spots (root : Value) (paths : List (Value × Value)) :
    (spots root paths).map (Spot.route root) = routesOf root paths := by
  unfold spots routesOf
  rw [List.map_flatMap]
  conv_rhs => rw [← List.zipIdx_map_fst 0 paths, List.flatMap_map]
  apply List.flatMap_congr
  rintro ⟨⟨key, item⟩, pathIndex⟩ -
  cases hkey : key.text? with
  | none => simp only [hkey]; rfl
  | some path => simp only [hkey]; exact map_route_pathSpots root pathIndex path item

/-! ## Documents with and without a description -/

/-- The value that stands for the version: that of `openapi`, or without such a key that
of `swagger`. -/
def IsVersionField (root v : Value) : Prop :=
  root.get? "openapi" = some v ∨ root.get? "openapi" = none ∧ root.get? "swagger" = some v

/-- A text or a number; under a tag it is neither. -/
inductive IsScalar : Value → Prop
  | text (s : String) : IsScalar (.text s)
  | number (n : Number) : IsScalar (.number n)

theorem scalarText?_isSome_iff {v : Value} : v.scalarText?.isSome = true ↔ IsScalar v := by
  constructor
  · intro h
    cases v with
    | text s => exact .text s
    | number n => exact .number n
    | _ => cases h
  · rintro (s | n) <;> rfl

theorem version?_isSome_iff {root : Value} :
    (version? root).isSome = true ↔ ∃ v, IsVersionField root v ∧ IsScalar v := by
  simp only [version?, IsVersionField, ← scalarText?_isSome_iff]
  cases root.get? "openapi" with
  | some v => simp
  | none => cases root.get? "swagger" <;> simp

theorem exists_error_iff {root : Value} :
    (∃ e, ofValue root = .error e) ↔
      (¬∃ v, IsVersionField root v ∧ IsScalar v) ∨
        ∃ v, root.get? "paths" = some v ∧ v.entries? = none := by
  rw [← version?_isSome_iff, ofValue]
  cases version? root with
  | none => simp
  | some version =>
    cases root.get? "paths" with
    | none => simp
    | some paths => cases h : paths.entries? <;> simp [h]

theorem routes_eq {root : Value} {d : Description} (hd : ofValue root = .ok d) :
    d.routes = routesOf root (pathEntries root) := by
  unfold ofValue at hd
  unfold pathEntries
  cases hversion : version? root with
  | none => simp [hversion] at hd
  | some version =>
    cases hpaths : root.get? "paths" with
    | none =>
      simp only [hversion, hpaths, Except.ok.injEq] at hd
      subst hd
      rfl
    | some paths =>
      cases hentries : paths.entries? with
      | none => simp [hversion, hpaths, hentries] at hd
      | some entries =>
        simp only [hversion, hpaths, hentries, Except.ok.injEq] at hd
        subst hd
        simp [hentries]

/-- A document has no description exactly if its version is no text or number or its
`paths` are there and no mapping. Otherwise the description has one route for every
operation of the document, in the order of the document, with the method and the path
under which the operation stands. -/
theorem routes_ofValue (root : Value) :
    ((∃ e, ofValue root = .error e) ↔
        (¬∃ v, IsVersionField root v ∧ IsScalar v) ∨
          ∃ v, root.get? "paths" = some v ∧ v.entries? = none) ∧
      ∀ d, ofValue root = .ok d → ∃ spots : List Spot,
        spots.Pairwise Spot.Before ∧ (∀ s, s ∈ spots ↔ s.In root) ∧
          d.routes = spots.map (Spot.route root) ∧
          d.routes.map (fun r => (r.method, r.path)) = spots.map fun s => (s.method, s.path) := by
  refine ⟨exists_error_iff, fun d hd => ?_⟩
  have hroutes : d.routes = (spots root (pathEntries root)).map (Spot.route root) := by
    rw [map_route_spots, routes_eq hd]
  refine ⟨spots root (pathEntries root), pairwise_spots root _, fun s => mem_spots_iff, hroutes, ?_⟩
  rw [hroutes, List.map_map]
  apply List.map_congr_left
  intro s _
  exact Prod.ext (Operation.method_route root s.method s.path s.operation s.shared)
    (Operation.path_route root s.method s.path s.operation s.shared)

/-- A document with one path, whose item is a reference; its operations are no mappings. -/
def referencedItem : Value := .mapping [
  (.text "openapi", .text "3.0.0"),
  (.text "paths", .mapping [(.text "/users", .mapping [(.text "$ref", .text "#/item")])]),
  (.text "item", .mapping [
    (.text "GET", .null), (.text "summary", .text "get"), (.text "post", .list [])])]

theorem routes_ofValue_referenced :
    ∃ d, ofValue referencedItem = .ok d ∧ ∃ spots : List Spot,
      spots.Pairwise Spot.Before ∧ (∀ s, s ∈ spots ↔ s.In referencedItem) ∧
        d.routes = spots.map (Spot.route referencedItem) ∧
        spots.map (fun s => (s.method, s.path)) = [(.get, "/users"), (.post, "/users")] := by
  have hd : ofValue referencedItem =
      .ok ⟨none, "3.0.0", routesOf referencedItem (pathEntries referencedItem)⟩ := rfl
  have hroutes : (routesOf referencedItem (pathEntries referencedItem)).map
      (fun r => (r.method, r.path)) = [(.get, "/users"), (.post, "/users")] := by
    decide +kernel
  obtain ⟨spots, hordered, hmem, hmap, hplaces⟩ := (routes_ofValue referencedItem).2 _ hd
  exact ⟨_, hd, spots, hordered, hmem, hmap, hplaces.symm.trans hroutes⟩

end Description

end ClientRoutes
