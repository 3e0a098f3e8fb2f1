import ClientRoutes.Call
import Mathlib.Data.List.Basic
import Mathlib.Data.List.Induction

/-
  The order in which a call is filled in.

  A step writes the field it stands for and no other one, and what it writes
  depends on the route and on the fields of the steps it reads. So a field has
  its last value once its step has run behind those, and the order of all other
  steps makes no difference.

  What is proved:
    1. `get_run_of_ne` — a step leaves every other field as it is.
    2. `get_run_congr` — what a step writes depends on what it reads only.
    3. `get_foldl` — the fields of the steps that have run in order are those
       of the call of the route.
    4. `foldl_run_of_perm` — all orders of the steps that keep each behind what
       it reads fill in the same call.
-/

namespace ClientRoutes.Call

/-- What stands in the field of a step. -/
def Step.Content : Step → Type
  | .function | .options => String
  | .query | .headers => GroupType
  | .payload | .responseDto => Option String
  | .requestValidator | .responseValidator => Validator
  | .pathSignatures | .pathArguments => List String
  | .requiredSignatures | .allSignatures | .requiredArguments | .allArguments => List String

/-- The field of a step in a call. -/
def get (c : Call) : (s : Step) → s.Content
  | .function => c.request.function
  | .pathSignatures => c.request.path.signatures
  | .pathArguments => c.request.path.arguments
  | .query => c.request.query
  | .headers => c.request.headers
  | .payload => c.request.payload
  | .options => c.request.options
  | .requiredSignatures => c.request.signatures.required
  | .allSignatures => c.request.signatures.all
  | .requiredArguments => c.request.arguments.required
  | .allArguments => c.request.arguments.all
  | .responseDto => c.response.dto
  | .requestValidator => c.request.validator
  | .responseValidator => c.response.validator

/-- The fields of the steps are all there is in a call. -/
theorem eq_of_get {c d : Call} (h : ∀ s, c.get s = d.get s) : c = d := by
  obtain ⟨⟨_, ⟨_, _⟩, _, _, _, _, ⟨_, _⟩, ⟨_, _⟩, _⟩, ⟨_, _⟩⟩ := c
  obtain ⟨⟨_, ⟨_, _⟩, _, _, _, _, ⟨_, _⟩, ⟨_, _⟩, _⟩, ⟨_, _⟩⟩ := d
  obtain rfl := h .function
  obtain rfl := h .pathSignatures
  obtain rfl := h .pathArguments
  obtain rfl := h .query
  obtain rfl := h .headers
  obtain rfl := h .payload
  obtain rfl := h .options
  obtain rfl := h .requiredSignatures
  obtain rfl := h .allSignatures
  obtain rfl := h .requiredArguments
  obtain rfl := h .allArguments
  obtain rfl := h .responseDto
  obtain rfl := h .requestValidator
  obtain rfl := h .responseValidator
  rfl

/-! ## What one step does -/

theorem get_run_of_ne {route : Route} {s t : Step} (h : t ≠ s) (c : Call) :
    (s.run route c).get t = c.get t := by
  cases s <;> cases t <;> first | rfl | exact absurd rfl h

theorem get_run_congr {route : Route} {s : Step} {c d : Call}
    (h : ∀ r ∈ s.reads, c.get r = d.get r) :
    (s.run route c).get s = (s.run route d).get s := by
  cases s with
  | options =>
    have hheaders : c.request.headers = d.request.headers := h .headers (by decide)
    show optionsType c.request.headers.dto = optionsType d.request.headers.dto
    rw [hheaders]
  | requiredSignatures =>
    have hpath : c.request.path.signatures = d.request.path.signatures :=
      h .pathSignatures (by decide)
    have hquery : c.request.query = d.request.query := h .query (by decide)
    have hpayload : c.request.payload = d.request.payload := h .payload (by decide)
    show c.request.path.signatures ++ Step.groupSignatures route c.request =
      d.request.path.signatures ++ Step.groupSignatures route d.request
    rw [hpath, Step.groupSignatures, Step.groupSignatures, hquery, hpayload]
  | allSignatures =>
    have hrequired : c.request.signatures.required = d.request.signatures.required :=
      h .requiredSignatures (by decide)
    have hoptions : c.request.options = d.request.options := h .options (by decide)
    show c.request.signatures.required ++ Step.trailingSignatures c.request =
      d.request.signatures.required ++ Step.trailingSignatures d.request
    rw [hrequired, Step.trailingSignatures, Step.trailingSignatures, hoptions]
  | requiredArguments =>
    have hpath : c.request.path.arguments = d.request.path.arguments :=
      h .pathArguments (by decide)
    show c.request.path.arguments ++ Step.groupArguments route = _
    rw [hpath]
    rfl
  | allArguments =>
    have hrequired : c.request.arguments.required = d.request.arguments.required :=
      h .requiredArguments (by decide)
    show c.request.arguments.required ++ Step.trailingArguments = _
    rw [hrequired]
    rfl
  | requestValidator =>
    have hpayload : c.request.payload = d.request.payload := h .payload (by decide)
    show Validator.describe c.request.payload (route.body.bind (·.shape)) .payload = _
    rw [hpayload]
    rfl
  | responseValidator =>
    have hdto : c.response.dto = d.response.dto := h .responseDto (by decide)
    show Validator.describe c.response.dto (route.responses.success?.bind (·.shape)) .response = _
    rw [hdto]
    rfl
  -- Every other step reads nothing but the route.
  | _ => rfl

/-- Running a step again changes nothing in the call of a route. -/
theorem run_ofRoute (route : Route) (s : Step) : s.run route (ofRoute route) = ofRoute route := by
  cases s <;> rfl

/-! ## What a run does -/

/-- That every step stands behind those it reads. -/
def InOrder (steps : List Step) : Prop :=
  ∀ s ∈ steps, ∀ r ∈ s.reads, steps.idxOf r < steps.idxOf s

instance (steps : List Step) : Decidable (InOrder steps) :=
  inferInstanceAs (Decidable (∀ s ∈ steps, ∀ r ∈ s.reads, steps.idxOf r < steps.idxOf s))

/-- What a step reads has run when its turn comes. -/
theorem InOrder.mem_before {before after : List Step} {s r : Step}
    (h : InOrder (before ++ s :: after)) (hr : r ∈ s.reads) : r ∈ before := by
  have hlt := h s (by simp) r hr
  have hle : (before ++ s :: after).idxOf s ≤ before.length := by
    by_cases hs : s ∈ before
    · rw [List.idxOf_append_of_mem hs]
      exact List.idxOf_le_length
    · rw [List.idxOf_append_of_notMem hs, List.idxOf_cons_self]
      omega
  by_contra hmem
  rw [List.idxOf_append_of_notMem hmem] at hlt
  omega

/-- A field has its last value as soon as its step has run. -/
theorem get_foldl {route : Route} {steps front : List Step} (horder : InOrder steps)
    (hfront : front <+: steps) {s : Step} (hs : s ∈ front) :
    (front.foldl (Step.run route) empty).get s = (ofRoute route).get s := by
  -- By induction on what has run; the step that comes last has all it reads in front of it.
  induction front using List.reverseRecOn generalizing s with
  | nil => cases hs
  | append_singleton before last ih =>
    obtain ⟨after, hsteps⟩ := hfront
    have hsteps : before ++ last :: after = steps := by simpa using hsteps
    have ih : ∀ t ∈ before,
        (before.foldl (Step.run route) empty).get t = (ofRoute route).get t :=
      fun t ht => ih ⟨last :: after, hsteps⟩ ht
    rw [List.foldl_append, List.foldl_cons, List.foldl_nil]
    by_cases hlast : s = last
    · subst hlast
      rw [get_run_congr fun r hr => ih r ((hsteps ▸ horder).mem_before hr), run_ofRoute]
    · rw [get_run_of_ne hlast]
      exact ih s (by simpa [hlast] using hs)

/-- Whatever the order of the steps, if each stands behind those it reads, they
fill in the call of the route. A step changes no field but its own, and the field
keeps the value that its step has given to it. -/
theorem foldl_run_of_perm (route : Route) {steps : List Step} (hperm : steps.Perm Step.all)
    (horder : InOrder steps) :
    steps.foldl (Step.run route) empty = ofRoute route ∧
      (∀ (s t : Step) (c : Call), t ≠ s → (s.run route c).get t = c.get t) ∧
      ∀ front, front <+: steps → ∀ s ∈ front,
        (front.foldl (Step.run route) empty).get s = (ofRoute route).get s := by
  refine ⟨?_, fun s t c h => get_run_of_ne h c, fun front h s hs => get_foldl horder h hs⟩
  apply eq_of_get
  intro s
  have hall : s ∈ Step.all := by cases s <;> decide
  exact get_foldl horder List.prefix_rfl (hperm.mem_iff.2 hall)

/-- The response can be filled in first and the function last. -/
theorem foldl_run_of_perm_users :
    ([.responseDto, .responseValidator, .payload, .requestValidator, .headers, .options,
        .pathArguments, .requiredArguments, .allArguments, .query, .pathSignatures,
        .requiredSignatures, .allSignatures, .function] : List Step).foldl
      (Step.run (.new .get "/users/\x7bid\x7d" "users")) empty =
      ofRoute (.new .get "/users/\x7bid\x7d" "users") :=
  (foldl_run_of_perm _ (by decide) (by decide)).1

end ClientRoutes.Call
