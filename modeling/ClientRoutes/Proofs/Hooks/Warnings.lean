import ClientRoutes.Proofs.Hooks.Invalidation

/-
  Warnings, counted against what is missing.

  A warning is of the kind of its cause. What the hooks of a route leave out is
  counted entry by entry and argument by argument: each one is either in the
  result or in a warning of its own.

  What is proved:
    1. `length_calls_add_number`, `number_unresolvable_add_length` — entries and
       arguments are in the calls or in warnings.
    2. `number_durationWarning?` — a duration is derived or warned about.
    3. `warnings_account` — the same for the hooks of every route and the index
       they are made with; no warning is about anything else.
-/

namespace ClientRoutes

/-- What a warning is about. -/
inductive Warning.Kind where
  | repeatedKey
  | malformedEntry
  | unknownKey
  | unresolvableArgument
  | unknownDuration (field : DurationField)
  | unknownFormat
  deriving DecidableEq, Repr

namespace Warning

/-- The kind of a warning. -/
def kind : Warning → Kind
  | .repeatedKey .. => .repeatedKey
  | .malformedEntry .. => .malformedEntry
  | .unknownKey .. => .unknownKey
  | .unresolvableArgument .. => .unresolvableArgument
  | .unknownDuration _ field _ => .unknownDuration field
  | .unknownFormat _ => .unknownFormat

/-- How many warnings of a kind there are. -/
def number (k : Kind) (warnings : List Warning) : Nat := warnings.countP fun w => w.kind = k

@[simp] theorem number_nil (k : Kind) : number k [] = 0 := rfl

@[simp] theorem number_append (k : Kind) (ws vs : List Warning) :
    number k (ws ++ vs) = number k ws + number k vs :=
  List.countP_append

theorem number_singleton (k : Kind) (w : Warning) :
    number k [w] = if w.kind = k then 1 else 0 := by
  simp [number, List.countP_cons]

theorem number_map_of_kind {α : Type} {f : α → Warning} (own : Kind) (h : ∀ x, (f x).kind = own)
    (k : Kind) (xs : List α) : number k (xs.map f) = if own = k then xs.length else 0 := by
  have hconst : ((fun w : Warning => decide (w.kind = k)) ∘ f) = fun _ => decide (own = k) := by
    funext x
    simp [h x]
  rw [number, List.countP_map, hconst]
  split <;> simp_all

end Warning

open Warning (number)

/-! ## Entries and arguments -/

namespace Outcome

/-- The argument tokens of the call that an entry becomes. -/
def tokens : Outcome → List String
  | .call _ _ tokens => tokens
  | _ => []

/-- What becomes of an entry says how many warnings of each kind there are about
it. -/
theorem number_warnings (k : Warning.Kind) (route : String) (o : Outcome) :
    number k (o.warnings route) =
      match o with
      | .malformed _ => if .malformedEntry = k then 1 else 0
      | .unknown _ => if .unknownKey = k then 1 else 0
      | .call _ _ tokens =>
        if .unresolvableArgument = k then (tokens.filter fun t => (argument? t).isNone).length
        else 0 := by
  cases o with
  | malformed entry => exact Warning.number_singleton k (.malformedEntry route entry)
  | unknown key => exact Warning.number_singleton k (.unknownKey route key)
  | call constant key tokens =>
    exact Warning.number_map_of_kind .unresolvableArgument (fun _ => rfl) k _

/-- An entry is a call, or there is one warning about it. -/
theorem length_call?_add_number (route : String) (o : Outcome) :
    o.call?.toList.length + number .malformedEntry (o.warnings route) +
      number .unknownKey (o.warnings route) = 1 := by
  cases o <;> simp [number_warnings, call?]

theorem length_filterMap_argument?_add (tokens : List String) :
    (tokens.filterMap argument?).length +
      (tokens.filter fun t => (argument? t).isNone).length = tokens.length := by
  induction tokens with
  | nil => rfl
  | cons token rest ih => cases ha : argument? token <;> simp [ha] <;> omega

/-- An argument is rendered, or there is one warning about it. -/
theorem number_unresolvable_add (route : String) (o : Outcome) :
    number .unresolvableArgument (o.warnings route) + (o.tokens.filterMap argument?).length =
      o.tokens.length := by
  cases o with
  | malformed entry => simp [number_warnings, tokens]
  | unknown key => simp [number_warnings, tokens]
  | call constant key tokens =>
    have h := length_filterMap_argument?_add tokens
    simp only [number_warnings, Outcome.tokens, if_true]
    omega

theorem length_calls_add_number (route : String) (os : List Outcome) :
    (os.filterMap call?).length + number .malformedEntry (os.flatMap (warnings route)) +
      number .unknownKey (os.flatMap (warnings route)) = os.length := by
  induction os with
  | nil => rfl
  | cons o rest ih =>
    have ho := length_call?_add_number route o
    have hcalls : ((o :: rest).filterMap call?).length =
        o.call?.toList.length + (rest.filterMap call?).length := by
      cases hc : o.call? <;> simp [hc]; omega
    simp only [hcalls, List.flatMap_cons, Warning.number_append, List.length_cons]
    omega

theorem number_unresolvable_add_length (route : String) (os : List Outcome) :
    number .unresolvableArgument (os.flatMap (warnings route)) +
      ((os.flatMap tokens).filterMap argument?).length = (os.flatMap tokens).length := by
  induction os with
  | nil => rfl
  | cons o rest ih =>
    have ho := number_unresolvable_add route o
    simp only [List.flatMap_cons, Warning.number_append, List.filterMap_append,
      List.length_append]
    omega

/-- There are no warnings about an entry but of these three kinds. -/
theorem length_warnings (route : String) (os : List Outcome) :
    (os.flatMap (warnings route)).length =
      number .malformedEntry (os.flatMap (warnings route)) +
        number .unknownKey (os.flatMap (warnings route)) +
        number .unresolvableArgument (os.flatMap (warnings route)) := by
  induction os with
  | nil => rfl
  | cons o rest ih =>
    have ho : (o.warnings route).length = number .malformedEntry (o.warnings route) +
        number .unknownKey (o.warnings route) +
        number .unresolvableArgument (o.warnings route) := by
      simp only [number_warnings]
      cases o <;> simp [warnings]
    simp only [List.flatMap_cons, List.length_append, Warning.number_append]
    omega

theorem number_flatMap_eq_zero {k : Warning.Kind} (hm : .malformedEntry ≠ k)
    (hu : .unknownKey ≠ k) (ha : .unresolvableArgument ≠ k) (route : String) (os : List Outcome) :
    number k (os.flatMap (warnings route)) = 0 := by
  induction os with
  | nil => rfl
  | cons o rest ih =>
    rw [List.flatMap_cons, Warning.number_append, ih, number_warnings]
    cases o <;> simp [hm, hu, ha]

end Outcome

namespace KeyIndex

/-- Whether some GET route declares the key of a directive. -/
def isAnswered (routes : List Route) (d : Directive) : Bool :=
  routes.any fun route => Declares d.key route

/-- The directives of a route whose key some GET route declares. -/
def resolved (routes : List Route) (route : Route) : List Directive :=
  (route.extensions.invalidates.filterMap Directive.ofText?).filter (isAnswered routes)

theorem isAnswered_eq (routes : List Route) (d : Directive) :
    isAnswered routes d = ((build routes).constant? d.key).isSome := by
  rw [constant?_build, Option.isSome_map, Bool.eq_iff_iff, List.find?_isSome, isAnswered,
    List.any_eq_true]

theorem tokens_outcomes (routes : List Route) (route : Route) :
    ((build routes).outcomes route).flatMap Outcome.tokens =
      (resolved routes route).flatMap Directive.tokens := by
  unfold outcomes resolved
  induction route.extensions.invalidates with
  | nil => rfl
  | cons entry rest ih =>
    rw [List.map_cons, List.flatMap_cons, ih, List.filterMap_cons, Outcome.ofEntry]
    cases Directive.ofText? entry with
    | none => rfl
    | some d =>
      dsimp only
      rw [List.filter_cons, isAnswered_eq]
      cases (build routes).constant? d.key <;> rfl

/-- The calls of a route are those of its resolved directives. -/
theorem calls_resolved (routes : List Route) (route : Route) :
    List.Forall₂
      (fun d call => ∃ target, routes.find? (Declares d.key) = some target ∧
        call = hookConstant routes target ++ "(" ++ ", ".intercalate d.rendered ++ ")")
      (resolved routes route) ((build routes).calls route) := by
  unfold resolved calls outcomes
  induction route.extensions.invalidates with
  | nil => exact .nil
  | cons entry rest ih =>
    rw [List.map_cons, List.filterMap_cons, List.filterMap_cons, call?_ofEntry, callOf?]
    cases Directive.ofText? entry with
    | none => exact ih
    | some d =>
      -- The filter keeps the directive exactly if the search finds a route.
      dsimp only
      rw [List.filter_cons, isAnswered_eq, constant?_build, Option.isSome_map]
      cases hf : routes.find? (Declares d.key) with
      | none => simpa [hf] using ih
      | some target => simpa [hf] using ih

theorem kind_of_mem_addRoutes {index : KeyIndex} {routes : List Route} {w : Warning}
    (h : w ∈ (index.addRoutes routes).2) : w.kind = .repeatedKey := by
  induction routes generalizing index with
  | nil => simp [addRoutes] at h
  | cons route rest ih =>
    rcases List.mem_append.1 h with h | h
    · obtain ⟨key, -, hw⟩ := Option.bind_eq_some_iff.1 (Option.mem_toList.1 h)
      obtain ⟨-, -, rfl⟩ := Option.map_eq_some_iff.1 hw
      rfl
    · exact ih h

end KeyIndex

/-! ## Durations and hooks -/

namespace Hooks

/-- A duration that is there is derived, or there is one warning about it. -/
theorem number_durationWarning? (k : Warning.Kind) (route : Route) (field : DurationField)
    (literal : Option DurationLiteral) :
    number k (durationWarning? route field literal).toList =
      if .unknownDuration field = k ∧ literal.isSome ∧ literal.bind Timing.ofLiteral? = none then 1
      else 0 := by
  cases literal with
  | none => simp [durationWarning?]
  | some l =>
    cases ht : Timing.ofLiteral? l with
    | none =>
      by_cases hk : .unknownDuration field = k <;>
        simp [durationWarning?, ht, Warning.number_singleton, Warning.kind, hk]
    | some timing => simp [durationWarning?, ht]

theorem length_durationWarning? (route : Route) (field : DurationField)
    (literal : Option DurationLiteral) :
    (durationWarning? route field literal).toList.length =
      if literal.isSome ∧ literal.bind Timing.ofLiteral? = none then 1 else 0 := by
  cases literal with
  | none => simp [durationWarning?]
  | some l => cases ht : Timing.ofLiteral? l <;> simp [durationWarning?, ht]

theorem number_warnings (k : Warning.Kind) (route : Route) (index : KeyIndex) :
    number k (warnings route index) =
      number k (index.callWarnings route) +
        number k (durationWarning? route .staleTime route.extensions.staleTime).toList +
        number k (durationWarning? route .gcTime route.extensions.gcTime).toList := by
  simp only [warnings, Warning.number_append]

/-- Entries and arguments are warned about in the calls, and only there. -/
theorem number_warnings_of_ne {k : Warning.Kind} (h : ∀ field, .unknownDuration field ≠ k)
    (route : Route) (index : KeyIndex) :
    number k (warnings route index) = number k (index.callWarnings route) := by
  simp [number_warnings, number_durationWarning?, h]

/-- A field has one warning if it is there and not derived, and else none. -/
theorem number_unknownDuration (field : DurationField) (route : Route) (index : KeyIndex) :
    number (.unknownDuration field) (warnings route index) =
      match field with
      | .staleTime =>
        if route.extensions.staleTime.isSome ∧
          route.extensions.staleTime.bind Timing.ofLiteral? = none then 1 else 0
      | .gcTime =>
        if route.extensions.gcTime.isSome ∧
          route.extensions.gcTime.bind Timing.ofLiteral? = none then 1 else 0 := by
  have hcalls : number (.unknownDuration field) (index.callWarnings route) = 0 :=
    Outcome.number_flatMap_eq_zero (by simp) (by simp) (by simp) _ _
  rw [number_warnings, hcalls]
  cases field <;> simp [number_durationWarning?]

end Hooks

namespace KeyIndex

/-- Nothing is left out without a warning, and nothing is warned about twice. Every
declaration of a key is a key of the index or a warning. For every route, each of
its entries is a call, a malformed entry or an unknown key; each argument of a
directive whose key is declared is rendered or warned about; and a duration that
is there is derived or warned about. There are no other warnings. -/
theorem warnings_account (routes : List Route) :
    (repetitions routes).length + (build routes).size = (declarations routes).length ∧
      (∀ w ∈ repetitions routes, w.kind = .repeatedKey) ∧
      ∀ route : Route,
        let hooks := Hooks.ofRoute route (Call.ofRoute route) (build routes)
        let warnings := Hooks.warnings route (build routes)
        hooks.mutation.invalidates.length + number .malformedEntry warnings +
            number .unknownKey warnings = route.extensions.invalidates.length ∧
          List.Forall₂
            (fun d call => ∃ target, routes.find? (Declares d.key) = some target ∧
              call = hookConstant routes target ++ "(" ++ ", ".intercalate d.rendered ++ ")")
            (resolved routes route) hooks.mutation.invalidates ∧
          number .unresolvableArgument warnings +
              ((resolved routes route).flatMap Directive.rendered).length =
            ((resolved routes route).flatMap Directive.tokens).length ∧
          number (.unknownDuration .staleTime) warnings =
            (if route.extensions.staleTime.isSome ∧ hooks.staleTime = none then 1 else 0) ∧
          number (.unknownDuration .gcTime) warnings =
            (if route.extensions.gcTime.isSome ∧ hooks.gcTime = none then 1 else 0) ∧
          warnings.length = number .malformedEntry warnings + number .unknownKey warnings +
            number .unresolvableArgument warnings + number (.unknownDuration .staleTime) warnings +
            number (.unknownDuration .gcTime) warnings := by
  refine ⟨length_repetitions_add_size routes, fun w => kind_of_mem_addRoutes, ?_⟩
  intro route hooks warnings
  have hmalformed : number .malformedEntry warnings =
      number .malformedEntry ((build routes).callWarnings route) :=
    Hooks.number_warnings_of_ne (by simp) route _
  have hunknown : number .unknownKey warnings =
      number .unknownKey ((build routes).callWarnings route) :=
    Hooks.number_warnings_of_ne (by simp) route _
  have hunresolvable : number .unresolvableArgument warnings =
      number .unresolvableArgument ((build routes).callWarnings route) :=
    Hooks.number_warnings_of_ne (by simp) route _
  refine ⟨?_, calls_resolved routes route, ?_, Hooks.number_unknownDuration .staleTime route _,
    Hooks.number_unknownDuration .gcTime route _, ?_⟩
  · have hentries : ((build routes).outcomes route).length = route.extensions.invalidates.length :=
      List.length_map _
    rw [hmalformed, hunknown, ← hentries]
    exact Outcome.length_calls_add_number _ _
  · have hrendered : (resolved routes route).flatMap Directive.rendered =
        (((build routes).outcomes route).flatMap Outcome.tokens).filterMap Outcome.argument? := by
      rw [tokens_outcomes, List.filterMap_flatMap]
      rfl
    rw [hunresolvable, hrendered, ← tokens_outcomes]
    exact Outcome.number_unresolvable_add_length _ _
  · have hcalls : ((build routes).callWarnings route).length = _ :=
      Outcome.length_warnings _ ((build routes).outcomes route)
    rw [hmalformed, hunknown, hunresolvable, Hooks.number_unknownDuration .staleTime,
      Hooks.number_unknownDuration .gcTime]
    simp only [warnings, Hooks.warnings, List.length_append, Hooks.length_durationWarning?, hcalls]
    rfl

end KeyIndex

end ClientRoutes
