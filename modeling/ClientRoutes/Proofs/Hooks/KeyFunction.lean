import ClientRoutes.Hooks
import ClientRoutes.Proofs.Call.Signatures
import ClientRoutes.Proofs.Description.Merging
import ClientRoutes.Proofs.Script.Names

/-
  The key function of a query, and the calls of it.

  The function binds the required signatures of a request and gives back the key
  of the query. What it binds comes from the parameters of the route; the names in
  the key come from the path itself: a segment with a brace stands for its text
  without braces and dollar signs, with underscores for dashes. The two agree for
  a segment that is nothing but a name in braces, unless the name itself has such
  characters, and for other segments only by chance.

  What is proved:
    1. `getElem?_signatures` — the signature at a position declares the argument
       at that position, and the hook passes and binds the required ones.
    2. `name_mem_items_iff`, `nameOf_placeholder_iff` — which names stand in a key,
       and which placeholders stand for their own name.
    3. `placeholder_bound` — the name in a placeholder is bound.
    4. `closed_iff` — when all names in a key are bound.
    5. `not_closed` — paths for which they are not.
-/

namespace ClientRoutes

open Text

/-! ## Positions -/

namespace Call

/-- A signature is the name of its argument, maybe a mark, and the type behind a
colon. -/
theorem Entry.text_eq (e : Entry) :
    e.text = e.name ++ (if e.optional then "?" else "") ++ ":" ++ e.type := by
  rw [← String.toList_inj]
  unfold Entry.text
  cases e.optional <;> simp

theorem mem_requiredArguments_iff {route : Route} {name : String} :
    name ∈ (ofRoute route).request.arguments.required ↔
      name ∈ (ofRoute route).request.path.arguments ∨
        name = "params" ∧ route.query.isSome = true ∨
        name = "payload" ∧ route.payload.isSome = true := by
  have h : (ofRoute route).request.arguments.required =
      (ofRoute route).request.path.arguments ++ Step.groupArguments route := rfl
  rw [h, List.mem_append, Step.groupArguments, List.mem_append]
  cases route.query <;> cases route.payload <;> simp

theorem mem_pathArguments_iff {route : Route} {name : String} :
    name ∈ (ofRoute route).request.path.arguments ↔ ∃ p ∈ route.pathParameters, p.name = name :=
  List.mem_map

/-- Signatures and arguments of a call go by the same entries: the parameters in
the path, the query parameters, the payload, the client and the options. So the
signature at a position is the name of the argument there, maybe a mark, and the
type behind a colon. A query hook gives the required arguments to a key function
that binds the required signatures; where the parameters have proper names, they
can be read off what it gives. -/
theorem getElem?_signatures (route : Route) (index : KeyIndex) :
    let q := (ofRoute route).request
    let hook := (Hooks.ofRoute route (ofRoute route) index).query
    q.signatures.required.length = q.arguments.required.length ∧
      q.signatures.all =
        q.signatures.required ++ ["kyInstance?: KyInstance", "options?: " ++ q.options] ∧
      q.arguments.all = q.arguments.required ++ ["kyInstance", "options"] ∧
      q.signatures.all.length = q.arguments.all.length ∧
      (∀ (i : Nat) (name : String), q.arguments.all[i]? = some name →
        ∃ e : Entry, (Call.entries route)[i]? = some e ∧ e.name = name ∧
          q.signatures.all[i]? =
            some (name ++ (if e.optional then "?" else "") ++ ":" ++ e.type)) ∧
      hook.keyArguments = ", ".intercalate q.arguments.required ∧
      hook.keyFunction =
        "(" ++ ", ".intercalate q.signatures.required ++ ")=>" ++ Key.query route ∧
      ((∀ p ∈ route.pathParameters, p.name.toList ≠ [] ∧ Casing.IsName p.name.toList) →
        Script.names hook.keyArguments = q.arguments.required) := by
  intro q hook
  refine ⟨?_, rfl, rfl, ?_, fun i name hname => ?_, rfl, rfl, fun hnames => ?_⟩
  · simp only [q, requiredSignatures_ofRoute, requiredArguments_ofRoute, List.length_map]
  · simp only [q, signatures_ofRoute, arguments_ofRoute, List.length_map]
  · simp only [q, signatures_ofRoute, arguments_ofRoute, List.getElem?_map] at hname ⊢
    obtain ⟨e, he, rfl⟩ := Option.map_eq_some_iff.1 hname
    exact ⟨e, he, rfl, by rw [he, Option.map_some, e.text_eq]⟩
  · apply Script.names_intercalate
    intro name hname
    rcases mem_requiredArguments_iff.1 hname with hpath | ⟨rfl, -⟩ | ⟨rfl, -⟩
    · obtain ⟨p, hp, rfl⟩ := mem_pathArguments_iff.1 hpath
      exact hnames p hp
    · decide
    · decide

/-- `PUT /users/{userId}` with query parameters and a payload. -/
def userRoute : Route :=
  ((Route.new .put "/users/\x7buserId\x7d" "users").addParameter
    ⟨"userId", "number", false, .path⟩).addParameter ⟨"notify", "boolean", true, .query⟩
    |>.setPayload "UserDto" false none

/-- The type of `userId` stands where `userId` is given. -/
theorem getElem?_signatures_user :
    (∀ p ∈ userRoute.pathParameters, p.name.toList ≠ [] ∧ Casing.IsName p.name.toList) ∧
      (ofRoute userRoute).request.arguments.all[0]? = some "userId" ∧
      (∃ e : Entry, (Call.entries userRoute)[0]? = some e ∧ e.name = "userId" ∧
        (ofRoute userRoute).request.signatures.all[0]? =
          some ("userId" ++ (if e.optional then "?" else "") ++ ":" ++ e.type)) ∧
      Script.names (Hooks.ofRoute userRoute (ofRoute userRoute) .empty).query.keyArguments =
        (ofRoute userRoute).request.arguments.required := by
  have hnames : ∀ p ∈ userRoute.pathParameters,
      p.name.toList ≠ [] ∧ Casing.IsName p.name.toList := by
    have h : userRoute.pathParameters = [⟨"userId", "number", false, .path⟩] := rfl
    rw [h]
    decide
  obtain ⟨-, -, -, -, hpositions, -, -, hread⟩ := getElem?_signatures userRoute .empty
  exact ⟨hnames, rfl, hpositions 0 "userId" rfl, hread hnames⟩

end Call

/-! ## Names in a key -/

namespace Key

/-- An entry of the key of a query before it is written. -/
inductive Item where
  /-- A segment of the path, in quotes. -/
  | literal (segment : String)
  | name (text : String)
  deriving DecidableEq, Repr

/-- How an entry is written. -/
def Item.text : Item → String
  | .literal segment => quoted segment
  | .name text => text

/-- The name that a segment with a brace stands for. -/
def nameOf (segment : String) : String := replaceChar '-' '_' (Template.bare segment)

/-- The entry of a segment. -/
def Item.ofSegment (segment : String) : Item :=
  if Template.isParameter segment then .name (nameOf segment) else .literal segment

/-- The entries of the key of a query. -/
def items (route : Route) : List Item :=
  (segments route.path).map Item.ofSegment ++ (route.query.map fun _ => .name "params").toList ++
    (route.payload.map fun _ => .name "payload").toList

theorem entries_eq (route : Route) : entries route = (items route).map Item.text := by
  have hsegment : ∀ s, entry s = (Item.ofSegment s).text := by
    intro s
    rw [entry, Item.ofSegment]
    cases Template.isParameter s <;> rfl
  rw [entries, items]
  cases route.query <;> cases route.payload <;> simp [hsegment, Item.text]

theorem ofSegment_eq_name_iff {segment name : String} :
    Item.ofSegment segment = .name name ↔
      Template.isParameter segment = true ∧ nameOf segment = name := by
  unfold Item.ofSegment
  cases Template.isParameter segment <;> simp

theorem name_mem_items_iff {route : Route} {name : String} :
    Item.name name ∈ items route ↔
      (∃ s ∈ segments route.path, Template.isParameter s = true ∧ nameOf s = name) ∨
        name = "params" ∧ route.query.isSome = true ∨
        name = "payload" ∧ route.payload.isSome = true := by
  rw [items, List.mem_append, List.mem_append, List.mem_map, or_assoc]
  simp only [ofSegment_eq_name_iff]
  cases route.query <;> cases route.payload <;> simp

/-- The characters that a name in a key loses or changes. -/
def marks : List Char := ['$', '\x7b', '\x7d', '-']

/-- A name that has none of these characters. -/
def Unmarked (name : String) : Prop := ∀ c ∈ name.toList, c ∉ marks

instance : DecidablePred Unmarked :=
  fun name => List.decidableBAll (fun c : Char => c ∉ marks) name.toList

theorem map_filter_eq_self_iff {p : Char → Bool} {f : Char → Char} {cs : List Char} :
    (cs.filter p).map f = cs ↔ ∀ c ∈ cs, p c = true ∧ f c = c := by
  constructor
  · intro h
    have hfilter : cs.filter p = cs := by
      apply List.filter_sublist.eq_of_length
      rw [← congrArg List.length h, List.length_map]
    rw [hfilter] at h
    have hmap : cs.map f = cs.map id := h.trans (List.map_id cs).symm
    exact fun c hc => ⟨List.filter_eq_self.1 hfilter c hc, List.map_inj_left.1 hmap c hc⟩
  · intro h
    rw [List.filter_eq_self.2 fun c hc => (h c hc).1,
      List.map_congr_left fun c hc => (h c hc).2, List.map_id']

/-- A name in braces stands for itself if nothing of it is lost or changed. -/
theorem nameOf_placeholder_iff (name : String) :
    nameOf ("\x7b" ++ name ++ "\x7d") = name ↔ Unmarked name := by
  have hbraces : (nameOf ("\x7b" ++ name ++ "\x7d")).toList =
      (name.toList.filter fun c => !(['$', '\x7b', '\x7d'].contains c)).map
        fun c => if c = '-' then '_' else c := by
    simp [nameOf, Template.bare]
  have hkept : ∀ c : Char, ((!(['$', '\x7b', '\x7d'].contains c)) = true ∧
      (if c = '-' then '_' else c) = c) ↔ c ∉ marks := by
    intro c
    by_cases hc : c = '-'
    · subst hc
      decide
    · simp [marks, hc]
  rw [← String.toList_inj, hbraces, map_filter_eq_self_iff]
  simp only [hkept, Unmarked]

/-! ## Names that the function binds -/

/-- Whether the function binds all names in its key. -/
def Closed (route : Route) : Prop :=
  ∀ name, Item.name name ∈ items route → name ∈ (Call.ofRoute route).request.arguments.required

/-- A segment that is a name in braces, and a name that stays as it is. -/
def IsPlainPlaceholder (segment : String) : Prop :=
  ∃ name, segment = "\x7b" ++ name ++ "\x7d" ∧ Unmarked name

/-- The groups are bound, so it comes down to the segments. -/
theorem closed_iff_segments (route : Route) :
    Closed route ↔ ∀ s ∈ segments route.path, Template.isParameter s = true →
      nameOf s ∈ (Call.ofRoute route).request.arguments.required := by
  constructor
  · intro h s hs hparameter
    exact h (nameOf s) (name_mem_items_iff.2 (.inl ⟨s, hs, hparameter, rfl⟩))
  · intro h name hname
    rcases name_mem_items_iff.1 hname with ⟨s, hs, hparameter, rfl⟩ | hgroup
    · exact h s hs hparameter
    · exact Call.mem_requiredArguments_iff.2 (.inr hgroup)

theorem mem_parts_of_mem_segments {path segment : String} (h : segment ∈ segments path) :
    segment ∈ Template.parts path :=
  List.mem_of_mem_filter (List.mem_of_mem_filter h)

/-- A route of a description has a parameter for each placeholder of its path. -/
theorem placeholder_bound {root : Value} {d : Description} {r : Route}
    (hd : Description.ofValue root = .ok d) (hr : r ∈ d.routes) {name : String}
    (h : "\x7b" ++ name ++ "\x7d" ∈ segments r.path) :
    name ∈ (Call.ofRoute r).request.path.arguments := by
  obtain ⟨method, path, operation, shared, rfl⟩ := Description.exists_operation hd hr
  rw [Operation.path_route] at h
  have hplaceholder : name ∈ Template.placeholders path :=
    Operation.mem_placeholders_iff.2 (mem_parts_of_mem_segments h)
  have hplaced := Operation.mem_placed_of_placeholder
    (Operation.declaredParameters root operation shared) hplaceholder
  rw [← Operation.parameters_route_eq root method path operation shared] at hplaced
  obtain ⟨p, hp, heq⟩ := List.mem_map.1 hplaced
  obtain ⟨hname, hplace⟩ := Prod.mk.inj heq
  exact Call.mem_pathArguments_iff.2
    ⟨p, List.mem_filter.2 ⟨hp, by simpa using hplace⟩, hname⟩

/-- The key function of a route of a description binds its required signatures and
gives back its items. The names among these are those of the segments with a brace
and of the groups, and all of them are bound exactly if those of the segments are.
The name in a placeholder is bound, but the segment stands for that name only if
it has no dollar sign, brace or dash. So the function is closed if every segment
with a brace is such a placeholder. -/
theorem closed_iff {root : Value} {d : Description} {r : Route}
    (hd : Description.ofValue root = .ok d) (hr : r ∈ d.routes) (index : KeyIndex) :
    let q := (Call.ofRoute r).request
    (Hooks.ofRoute r (Call.ofRoute r) index).query.keyFunction =
        "(" ++ ", ".intercalate q.signatures.required ++ ")=>" ++ array ((items r).map Item.text) ∧
      (∀ name, .name name ∈ items r ↔
        (∃ s ∈ segments r.path, Template.isParameter s = true ∧ nameOf s = name) ∨
          name = "params" ∧ r.query.isSome = true ∨
          name = "payload" ∧ r.payload.isSome = true) ∧
      (Closed r ↔ ∀ s ∈ segments r.path, Template.isParameter s = true →
        nameOf s ∈ q.arguments.required) ∧
      (∀ name, "\x7b" ++ name ++ "\x7d" ∈ segments r.path →
        name ∈ q.arguments.required ∧
          (nameOf ("\x7b" ++ name ++ "\x7d") = name ↔ Unmarked name)) ∧
      ((∀ s ∈ segments r.path, Template.isParameter s = true → IsPlainPlaceholder s) →
        Closed r) := by
  intro q
  have hbound : ∀ name, "\x7b" ++ name ++ "\x7d" ∈ segments r.path →
      name ∈ q.arguments.required :=
    fun name h => Call.mem_requiredArguments_iff.2 (.inl (placeholder_bound hd hr h))
  refine ⟨?_, fun name => name_mem_items_iff, closed_iff_segments r,
    fun name h => ⟨hbound name h, nameOf_placeholder_iff name⟩, fun hplain => ?_⟩
  · rw [← entries_eq]
    rfl
  · rw [closed_iff_segments]
    intro s hs hparameter
    obtain ⟨name, rfl, hname⟩ := hplain s hs hparameter
    rw [(nameOf_placeholder_iff name).2 hname]
    exact hbound name hs

/-- An operation without anything. -/
def emptyOperation : Value := .mapping []

/-- A document with one path. -/
def singlePath (path : String) : Value := .mapping [
  (.text "openapi", .text "3.0.0"),
  (.text "paths", .mapping [(.text path, .mapping [(.text "get", emptyOperation)])])]

/-- The route of such a document. -/
def singleRoute (path : String) : Route :=
  Operation.route (singlePath path) .get path emptyOperation none

theorem ofValue_singlePath (path : String) :
    Description.ofValue (singlePath path) = .ok ⟨none, "3.0.0", [singleRoute path]⟩ := rfl

/-- `userId` is bound, and its segment stands for it. -/
theorem closed_iff_posts :
    Description.ofValue (singlePath "/users/\x7buserId\x7d/posts") =
        .ok ⟨none, "3.0.0", [singleRoute "/users/\x7buserId\x7d/posts"]⟩ ∧
      Closed (singleRoute "/users/\x7buserId\x7d/posts") := by
  have hd := ofValue_singlePath "/users/\x7buserId\x7d/posts"
  obtain ⟨-, -, -, -, hclosed⟩ := closed_iff hd (List.mem_singleton_self _) .empty
  refine ⟨hd, hclosed ?_⟩
  have hsegments : segments (singleRoute "/users/\x7buserId\x7d/posts").path =
      ["users", "\x7buserId\x7d", "posts"] := by decide +kernel
  rw [hsegments]
  intro s hs hparameter
  have hs : s = "\x7buserId\x7d" := by
    simp only [List.mem_cons, List.not_mem_nil, or_false] at hs
    rcases hs with rfl | rfl | rfl
    · exact absurd hparameter (by decide)
    · rfl
    · exact absurd hparameter (by decide)
  exact ⟨"userId", hs, by decide⟩

/-- A segment stands for `group_id` while `group-id` is bound, and another one for
`name.json` while nothing is bound. -/
theorem not_closed :
    (Description.ofValue (singlePath "/groups/\x7bgroup-id\x7d") =
        .ok ⟨none, "3.0.0", [singleRoute "/groups/\x7bgroup-id\x7d"]⟩ ∧
      function (singleRoute "/groups/\x7bgroup-id\x7d")
          (Call.ofRoute (singleRoute "/groups/\x7bgroup-id\x7d")).request.signatures.required =
        "(group-id:string)=>['groups', group_id]" ∧
      ¬Closed (singleRoute "/groups/\x7bgroup-id\x7d")) ∧
    (Description.ofValue (singlePath "/files/\x7bname\x7d.json") =
        .ok ⟨none, "3.0.0", [singleRoute "/files/\x7bname\x7d.json"]⟩ ∧
      function (singleRoute "/files/\x7bname\x7d.json")
          (Call.ofRoute (singleRoute "/files/\x7bname\x7d.json")).request.signatures.required =
        "()=>['files', name.json]" ∧
      ¬Closed (singleRoute "/files/\x7bname\x7d.json")) := by
  have hgroup : Item.name "group_id" ∈ items (singleRoute "/groups/\x7bgroup-id\x7d") ∧
      "group_id" ∉ (Call.ofRoute
        (singleRoute "/groups/\x7bgroup-id\x7d")).request.arguments.required := by
    decide +kernel
  have hname : Item.name "name.json" ∈ items (singleRoute "/files/\x7bname\x7d.json") ∧
      "name.json" ∉ (Call.ofRoute
        (singleRoute "/files/\x7bname\x7d.json")).request.arguments.required := by
    decide +kernel
  exact ⟨⟨ofValue_singlePath _, by decide +kernel, fun h => hgroup.2 (h _ hgroup.1)⟩,
    ⟨ofValue_singlePath _, by decide +kernel, fun h => hname.2 (h _ hname.1)⟩⟩

end Key

end ClientRoutes
