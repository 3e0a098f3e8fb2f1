import ClientRoutes.Proofs.Description.Responses
import Mathlib.Data.List.Forall2

/-
  Local references in a document.

  A list of keys that leads through nested mappings is written as a reference by
  escaping every key and joining them with slashes; the reference stands for what the
  keys lead to. An operation says the same with such references as without them: its
  parameters, the parameters of its path, its body and its responses are each looked
  through before anything is read off them.

  What is proved:
    1. `keys_pointer` — the keys of a reference are read back, whatever characters they
       have.
    2. `resolve_reference` — a reference stands for what its keys lead to.
    3. `Replaces.resolve_eq` — a value and a reference in its place stand for the same.
    4. `references_transparent` — besides, the route of an operation stays the same if
       references take the place of some of its parts.
-/

namespace ClientRoutes

/-! ## Writing references -/

namespace Pointer

open Text

/-- Keys lead through nested mappings from a value to another one. -/
inductive Under : Value → List String → Value → Prop
  | here (v : Value) : Under v [] v
  | step {v w target : Value} {key : String} {keys : List String} (hkey : v.get? key = some w)
      (hrest : Under w keys target) : Under v (key :: keys) target

/-- The text behind `#/` in a reference with some keys. -/
def pointer (keys : List String) : String :=
  "/".intercalate (keys.map fun key => String.ofList (escape key.toList))

/-- The reference with some keys. -/
def reference (keys : List String) : Value :=
  .mapping [(.text "$ref", .text ("#/" ++ pointer keys))]

theorem slash_not_mem_escape (key : List Char) : '/' ∉ escape key := by
  intro hmem
  obtain ⟨c, -, hc⟩ := List.mem_flatMap.1 hmem
  split at hc
  · exact absurd hc (by decide)
  · split at hc
    · exact absurd hc (by decide)
    · next hslash => exact hslash (List.mem_singleton.1 hc).symm

theorem keys_pointer {keys : List String} (hne : keys ≠ []) :
    Pointer.keys (pointer keys) = keys := by
  have hpointer : (pointer keys).toList =
      ['/'].intercalate (keys.map fun key => escape key.toList) := by
    rw [pointer, String.toList_intercalate, List.map_map]
    simp [Function.comp_def]
  have hplain : ∀ part ∈ keys.map (fun key => escape key.toList), '/' ∉ part := by
    intro part hpart
    obtain ⟨key, -, rfl⟩ := List.mem_map.1 hpart
    exact slash_not_mem_escape key.toList
  rw [Pointer.keys, hpointer, split_intercalate (by simpa using hne) hplain, List.map_map]
  simp [Function.comp_def, unescape_escape]

theorem follow?_eq_some_iff {root target : Value} {keys : List String} :
    follow? root keys = some target ↔ Under root keys target := by
  induction keys generalizing root with
  | nil =>
    constructor
    · intro h
      rw [← Option.some.inj h]
      exact .here root
    · rintro ⟨⟩
      rfl
  | cons key keys ih =>
    have hcons : follow? root (key :: keys) = (root.get? key).bind (follow? · keys) := rfl
    rw [hcons, Option.bind_eq_some_iff]
    constructor
    · rintro ⟨w, hw, hrest⟩
      exact .step hw (ih.1 hrest)
    · rintro (_ | ⟨hw, hrest⟩)
      exact ⟨_, hw, ih.2 hrest⟩

/-- A local reference leads to what lies under its keys. -/
theorem leads_iff_under {root v target : Value} :
    Leads root v target ↔
      ∃ pointer, v.textAt? "$ref" = some ("#/" ++ pointer) ∧ Under root (keys pointer) target := by
  simp only [Leads, follow?_eq_some_iff]

theorem resolve_of_leads {root v target : Value} (h : Leads root v target) :
    resolve root v = target :=
  resolve_eq_iff.2 (.inl h)

theorem resolve_of_forall_not_leads {root v : Value} (h : ∀ target, ¬Leads root v target) :
    resolve root v = v :=
  resolve_eq_iff.2 (.inr ⟨h, rfl⟩)

theorem not_leads_of_textAt? {root v : Value} (h : v.textAt? "$ref" = none) (target : Value) :
    ¬Leads root v target := by
  rintro ⟨pointer, hpointer, -⟩
  rw [h] at hpointer
  cases hpointer

/-- A local reference under whose keys there is nothing stands for itself. -/
theorem resolve_of_forall_not_under {root v : Value} {pointer : String}
    (hpointer : v.textAt? "$ref" = some ("#/" ++ pointer))
    (h : ∀ target, ¬Under root (keys pointer) target) : resolve root v = v := by
  refine resolve_of_forall_not_leads fun target hleads => ?_
  obtain ⟨other, hother, hunder⟩ := leads_iff_under.1 hleads
  rw [← ofValue?_eq_some_iff] at hpointer hother
  obtain rfl := Option.some.inj (hpointer.symm.trans hother)
  exact h target hunder

theorem leads_reference {root target : Value} {keys : List String} (hne : keys ≠ [])
    (h : Under root keys target) : Leads root (reference keys) target :=
  leads_iff_under.2 ⟨pointer keys, rfl, by rwa [keys_pointer hne]⟩

theorem resolve_reference {root target : Value} {keys : List String} (hne : keys ≠ [])
    (h : Under root keys target) : resolve root (reference keys) = target :=
  resolve_of_leads (leads_reference hne h)

/-- A value, and what may stand in its place: itself, or a reference to it. A reference
is followed once only, so the value must not be one that leads on. -/
inductive Replaces (root : Value) : Value → Value → Prop
  | same (v : Value) : Replaces root v v
  | reference {target : Value} {keys : List String} (hne : keys ≠ [])
      (hunder : Under root keys target) (hlast : ∀ w, ¬Leads root target w) :
      Replaces root target (reference keys)

theorem Replaces.resolve_eq {root v w : Value} (h : Replaces root v w) :
    resolve root w = resolve root v := by
  cases h with
  | same => rfl
  | reference hne hunder hlast =>
    rw [resolve_reference hne hunder, resolve_of_forall_not_leads hlast]

end Pointer

/-! ## Values with some parts replaced -/

namespace Value

/-- Two values that differ at most in the items of a list. -/
inductive Itemwise (R : Value → Value → Prop) : Value → Value → Prop
  | same (v : Value) : Itemwise R v v
  | list {xs ys : List Value} (h : List.Forall₂ R xs ys) : Itemwise R (.list xs) (.list ys)
  | tagged (tag : String) {v w : Value} (h : Itemwise R v w) :
      Itemwise R (.tagged tag v) (.tagged tag w)

/-- Two entries with the same key, and values that may differ as the key allows. -/
def EntryRel (R : Value → Value → Value → Prop) (e f : Value × Value) : Prop :=
  f.1 = e.1 ∧ R e.1 e.2 f.2

/-- Two values that differ at most in the values of a mapping, key by key. -/
inductive Entrywise (R : Value → Value → Value → Prop) : Value → Value → Prop
  | same (v : Value) : Entrywise R v v
  | mapping {es fs : List (Value × Value)} (h : List.Forall₂ (EntryRel R) es fs) :
      Entrywise R (.mapping es) (.mapping fs)
  | tagged (tag : String) {v w : Value} (h : Entrywise R v w) :
      Entrywise R (.tagged tag v) (.tagged tag w)

theorem Itemwise.items? {R : Value → Value → Prop} (hrefl : ∀ v, R v v) {v w : Value}
    (h : Itemwise R v w) : List.Forall₂ R (v.items?.getD []) (w.items?.getD []) := by
  induction h with
  | same v => exact List.forall₂_same.2 fun x _ => hrefl x
  | list h => exact h
  | tagged tag _ ih => exact ih

section
variable {R : Value → Value → Value → Prop} {v w : Value}

theorem Entrywise.entries? (hrefl : ∀ key v, R key v v) (h : Entrywise R v w) :
    List.Forall₂ (EntryRel R) (v.entries?.getD []) (w.entries?.getD []) := by
  induction h with
  | same v => exact List.forall₂_same.2 fun e _ => ⟨rfl, hrefl e.1 e.2⟩
  | mapping h => exact h
  | tagged tag _ ih => exact ih

theorem rel_find? {es fs : List (Value × Value)} (h : List.Forall₂ (EntryRel R) es fs)
    (name : String) : Option.Rel (R (.text name)) (find? name es) (find? name fs) := by
  induction h with
  | nil => exact .none
  | @cons e f es fs hef _ ih =>
    obtain ⟨key, w⟩ := f
    obtain ⟨hkey, hvw⟩ := hef
    obtain rfl : key = e.1 := hkey
    obtain ⟨key, v⟩ := e
    cases key with
    | text s =>
      by_cases hs : s = name
      · subst hs
        simp only [find?, if_true]
        exact .some hvw
      · simp only [find?, if_neg hs]
        exact ih
    | _ => exact ih

theorem get?_eq_find? (v : Value) (name : String) :
    v.get? name = find? name (v.entries?.getD []) := by
  unfold get? entries?
  cases v.untag <;> rfl

theorem Entrywise.get? (hrefl : ∀ key v, R key v v) (h : Entrywise R v w) (name : String) :
    Option.Rel (R (.text name)) (v.get? name) (w.get? name) := by
  rw [get?_eq_find?, get?_eq_find?]
  exact rel_find? (h.entries? hrefl) name

end

end Value

/-! ## Operations with some parts replaced -/

namespace Operation

open Pointer (Replaces)
open Value (Itemwise Entrywise EntryRel)

/-- The value under a key of an operation, and what may stand in its place: under
`parameters` some items may be replaced, under `requestBody` the value itself, and under
`responses` some values by their status. -/
def FieldReplaced (root key v w : Value) : Prop :=
  match key with
  | .text "parameters" => Itemwise (Replaces root) v w
  | .text "requestBody" => Replaces root v w
  | .text "responses" => Entrywise (fun _ => Replaces root) v w
  | _ => w = v

theorem fieldReplaced_refl (root key v : Value) : FieldReplaced root key v v := by
  unfold FieldReplaced
  split
  · exact .same v
  · exact .same v
  · exact .same v
  · rfl

/-- An operation, and the same one with references in place of some of its parts. -/
def Referenced (root operation operation' : Value) : Prop :=
  Entrywise (FieldReplaced root) operation operation'

theorem rel_eq {a b : Option Value} (h : Option.Rel (fun v w => w = v) a b) : b = a := by
  cases h with
  | none => rfl
  | some h => rw [h]

theorem map_resolve_eq {root : Value} {xs ys : List Value}
    (h : List.Forall₂ (Replaces root) xs ys) :
    ys.map (Pointer.resolve root) = xs.map (Pointer.resolve root) := by
  induction h with
  | nil => rfl
  | cons hxy _ ih => rw [List.map_cons, List.map_cons, hxy.resolve_eq, ih]

theorem listed_eq {root : Value} {list list' : Option Value}
    (h : Option.Rel (Itemwise (Replaces root)) list list') :
    listed root list' = listed root list := by
  cases h with
  | none => rfl
  | some h => exact map_resolve_eq (h.items? .same)

theorem map_addition_eq {root : Value} {es fs : List (Value × Value)}
    (h : List.Forall₂ (EntryRel fun _ => Replaces root) es fs) :
    (fs.filterMap fun e => e.1.scalarText?.map (·, e.2)).map (addition root) =
      (es.filterMap fun e => e.1.scalarText?.map (·, e.2)).map (addition root) := by
  induction h with
  | nil => rfl
  | @cons e f es fs hef _ ih =>
    obtain ⟨hkey, hvalue⟩ := hef
    rw [List.filterMap_cons, List.filterMap_cons, hkey]
    cases e.1.scalarText? with
    | none => exact ih
    | some status => simp only [Option.map_some, List.map_cons, ih, addition, hvalue.resolve_eq]

namespace Referenced

variable {root operation operation' : Value} {shared shared' : Option Value}

theorem get?_of_not_mem (h : Referenced root operation operation') {name : String}
    (hname : name ∉ ["parameters", "requestBody", "responses"]) :
    operation'.get? name = operation.get? name := by
  have hfield : FieldReplaced root (.text name) = fun v w => w = v := by
    funext v w
    unfold FieldReplaced
    split <;> simp_all
  apply rel_eq
  rw [← hfield]
  exact h.get? (fieldReplaced_refl root) name

theorem declared_eq (h : Referenced root operation operation')
    (hshared : Option.Rel (Itemwise (Replaces root)) shared shared') :
    declared root operation' shared' = declared root operation shared := by
  have hparameters := h.get? (fieldReplaced_refl root) "parameters"
  rw [declared, declared, listed_eq hshared, listed_eq hparameters]

theorem content?_eq (h : Referenced root operation operation') (declared : List Value) :
    content? root operation' declared = content? root operation declared := by
  have hbody : Option.Rel (Replaces root) (operation.get? "requestBody")
      (operation'.get? "requestBody") := h.get? (fieldReplaced_refl root) "requestBody"
  unfold content?
  generalize operation.get? "requestBody" = body, operation'.get? "requestBody" = body' at hbody ⊢
  cases hbody with
  | none => rfl
  | some h => simp only [h.resolve_eq]

theorem additions_eq (h : Referenced root operation operation') :
    (responses operation').map (addition root) = (responses operation).map (addition root) := by
  have hresponses : Option.Rel (Entrywise fun _ => Replaces root) (operation.get? "responses")
      (operation'.get? "responses") := h.get? (fieldReplaced_refl root) "responses"
  unfold responses
  generalize operation.get? "responses" = list, operation'.get? "responses" = list' at hresponses ⊢
  cases hresponses with
  | none => rfl
  | some h => exact map_addition_eq (h.entries? fun _ v => .same v)

theorem extensions_eq (h : Referenced root operation operation') :
    extensions operation' = extensions operation := by
  simp (disch := decide) only [extensions, invalidations, durationAt?, h.get?_of_not_mem]

theorem module_eq (h : Referenced root operation operation') (path : String) :
    module operation' path = module operation path := by
  simp (disch := decide) only [module, tag?, h.get?_of_not_mem]

theorem route_eq (h : Referenced root operation operation')
    (hshared : Option.Rel (Itemwise (Replaces root)) shared shared') (method : Method)
    (path : String) :
    route root method path operation' shared' = route root method path operation shared := by
  have hid : operation'.textAt? "operationId" = operation.textAt? "operationId" := by
    rw [Value.textAt?, Value.textAt?, h.get?_of_not_mem (by decide)]
  rw [Operation.route_eq, Operation.route_eq, h.additions_eq, requestRoute, requestRoute,
    declaredRoute, declaredRoute, h.declared_eq hshared, h.content?_eq, h.module_eq,
    h.extensions_eq, hid]

end Referenced

/-- A reference with some keys, whatever their characters, stands for what they lead to,
and one that leads nowhere stands for itself. So the route of an operation stays the same
if such references take the place of parameters, of those that its path shares, of its
body or of its responses. -/
theorem references_transparent (root : Value) :
    (∀ keys target, keys ≠ [] → Pointer.Under root keys target →
        Pointer.resolve root (Pointer.reference keys) = target) ∧
      (∀ (v : Value) (pointer : String), v.textAt? "$ref" = some ("#/" ++ pointer) →
        (∀ target, ¬Pointer.Under root (Pointer.keys pointer) target) →
        Pointer.resolve root v = v) ∧
      ∀ (method : Method) (path : String) (operation operation' : Value)
        (shared shared' : Option Value), Referenced root operation operation' →
        Option.Rel (Itemwise (Replaces root)) shared shared' →
        route root method path operation' shared' = route root method path operation shared := by
  refine ⟨fun keys target => Pointer.resolve_reference,
    fun v pointer => Pointer.resolve_of_forall_not_under, ?_⟩
  intro method path operation operation' shared shared' h hshared
  exact h.route_eq hshared method path

/-- A parameter in the query. -/
def limit : Value := .mapping [(.text "name", .text "limit"), (.text "in", .text "query")]

/-- A body in JSON. -/
def pet : Value := .mapping [(.text "content", .mapping [(.text "application/json", .null)])]

/-- A response without a schema. -/
def created : Value := .mapping [(.text "description", .text "created")]

/-- A document with these parts under a key that has to be escaped. -/
def parts : Value := .mapping [(.text "parts", .mapping [(.text "a/b~c", .mapping [
  (.text "limit", limit), (.text "pet", pet), (.text "created", created)])])]

/-- An operation with a parameter, a body and a response. -/
def saving (parameter body response : Value) : Value := .mapping [
  (.text "tags", .list [.text "pets"]), (.text "parameters", .list [parameter]),
  (.text "requestBody", body), (.text "responses", .mapping [(.text "201", response)])]

/-- The reference to one of the parts. -/
def part (name : String) : Value := Pointer.reference ["parts", "a/b~c", name]

theorem references_transparent_escaped :
    part "limit" = .mapping [(.text "$ref", .text "#/parts/a~1b~0c/limit")] ∧
      Pointer.resolve parts (part "limit") = limit ∧
      Pointer.resolve parts (.mapping [(.text "$ref", .text "#/parts/none")]) =
        .mapping [(.text "$ref", .text "#/parts/none")] ∧
      route parts .post "/pets" (saving (part "limit") (part "pet") (part "created"))
          (some (.list [limit, part "limit"])) =
        route parts .post "/pets" (saving limit pet created) (some (.list [limit, limit])) := by
  have hunder : ∀ {name : String} {target : Value},
      ((parts.get? "parts").bind (·.get? "a/b~c")).bind (·.get? name) = some target →
        Pointer.Under parts ["parts", "a/b~c", name] target :=
    fun h => .step rfl (.step rfl (.step h (.here _)))
  have hlimit : Replaces parts limit (part "limit") :=
    .reference (by simp) (hunder rfl) (Pointer.not_leads_of_textAt? rfl)
  have hpet : Replaces parts pet (part "pet") :=
    .reference (by simp) (hunder rfl) (Pointer.not_leads_of_textAt? rfl)
  have hcreated : Replaces parts created (part "created") :=
    .reference (by simp) (hunder rfl) (Pointer.not_leads_of_textAt? rfl)
  have hoperation : Referenced parts (saving limit pet created)
      (saving (part "limit") (part "pet") (part "created")) :=
    .mapping (.cons ⟨rfl, rfl⟩ (.cons ⟨rfl, .list (.cons hlimit .nil)⟩
      (.cons ⟨rfl, hpet⟩ (.cons ⟨rfl, .mapping (.cons ⟨rfl, hcreated⟩ .nil)⟩ .nil))))
  obtain ⟨hresolve, hdangling, hroute⟩ := references_transparent parts
  refine ⟨rfl, hresolve _ _ (by simp) (hunder rfl), hdangling _ "parts/none" rfl ?_, ?_⟩
  · intro target hnone
    rw [← Pointer.follow?_eq_some_iff] at hnone
    cases hnone
  · exact hroute .post "/pets" _ _ _ _ hoperation
      (.some (.list (.cons (.same limit) (.cons hlimit .nil))))

end Operation

end ClientRoutes
