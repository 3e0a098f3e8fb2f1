import ClientRoutes.Hooks.KeyIndex
import Mathlib.Data.Finset.Card

/-
  The index of query keys, against the list of routes it is built from.

  The index grows route by route. Each step says what it adds for one key and by
  how much the number of keys grows; what a run says follows by induction on the
  routes.

  What is proved:
    1. `constant?_build` — a key has the constant of the first GET route of the
       list that declares it.
    2. `constant?_build_append`, `build_filter_get` — neither later routes nor
       other methods change the constant of a key.
    3. `size_build` — the index has as many keys as GET routes declare, each
       counted once.
    4. `length_repetitions_add_size` — every declaration is a key of the index or
       a warning.
-/

namespace ClientRoutes.KeyIndex

/-- A route declares a key if it is read with GET and carries the key. -/
def Declares (key : String) (route : Route) : Prop :=
  route.method = .get ∧ route.extensions.queryKey = some key

instance (key : String) : DecidablePred (Declares key) :=
  fun route => inferInstanceAs (Decidable (route.method = .get ∧ _))

/-- The keys that some routes declare, one for each declaration. -/
def declarations (routes : List Route) : List String :=
  (routes.filter (·.method = .get)).filterMap (·.extensions.queryKey)

/-- The keys of an index. -/
def keys (index : KeyIndex) : List String := index.targets.map Prod.fst

theorem declared?_eq_some_iff {route : Route} {key : String} :
    declared? route = some key ↔ Declares key route := by
  unfold declared? Declares
  split <;> simp_all

theorem declarations_cons (route : Route) (rest : List Route) :
    declarations (route :: rest) = (declared? route).toList ++ declarations rest := by
  unfold declarations declared?
  by_cases hget : route.method = .get
  · cases hkey : route.extensions.queryKey <;> simp [hget, hkey]
  · simp [hget]

theorem mem_declarations_iff {routes : List Route} {key : String} :
    key ∈ declarations routes ↔ ∃ route ∈ routes, Declares key route := by
  simp only [declarations, Declares, List.mem_filterMap, List.mem_filter, decide_eq_true_eq,
    and_assoc]

theorem isSome_constant?_iff {index : KeyIndex} {key : String} :
    (index.constant? key).isSome ↔ key ∈ index.keys := by
  simp [constant?, keys, List.lookup_isSome_iff]

/-! ## One route -/

theorem constant?_add_eq (index : KeyIndex) (new constant key : String) :
    (index.add new constant).constant? key =
      (index.constant? key).or (if key = new then some constant else none) := by
  unfold add
  split
  · next h =>
    by_cases hk : key = new
    · subst hk
      obtain ⟨c, hc⟩ := Option.isSome_iff_exists.1 h
      rw [hc, Option.some_or]
    · rw [if_neg hk, Option.or_none]
  · by_cases hk : key = new
    · subst hk; simp [constant?, List.lookup_append]
    · have hb : (key == new) = false := by simpa using hk
      simp [constant?, List.lookup_append, List.lookup_cons, hb, hk]

theorem constant?_addRoute (index : KeyIndex) (route : Route) (key : String) :
    (index.addRoute route).constant? key =
      (index.constant? key).or
        (if Declares key route then some (Key.constant route.method route.path) else none) := by
  unfold addRoute
  cases hd : declared? route with
  | none =>
    have hnot : ¬Declares key route := by
      rw [← declared?_eq_some_iff, hd]
      simp
    rw [if_neg hnot, Option.or_none]
  | some new =>
    have hiff : Declares key route ↔ key = new := by
      rw [← declared?_eq_some_iff, hd, Option.some_inj, eq_comm]
    simp only [constant?_add_eq, hiff]

theorem keys_add (index : KeyIndex) (new constant : String) :
    (index.add new constant).keys =
      if new ∈ index.keys then index.keys else index.keys ++ [new] := by
  unfold add
  simp only [isSome_constant?_iff]
  split
  · rfl
  · simp [keys]

theorem nodup_keys_addRoute {index : KeyIndex} (h : index.keys.Nodup) (route : Route) :
    (index.addRoute route).keys.Nodup := by
  unfold addRoute
  cases declared? route with
  | none => exact h
  | some new =>
    dsimp only
    rw [keys_add]
    split
    · exact h
    · next hnew =>
      rw [← List.concat_eq_append, List.nodup_concat]
      exact ⟨hnew, h⟩

/-- A declaration adds a key or is reported as a repetition. -/
theorem length_repetition?_add_size (index : KeyIndex) (route : Route) :
    (index.repetition? route).toList.length + (index.addRoute route).size =
      index.size + (declared? route).toList.length := by
  unfold repetition? addRoute
  cases hd : declared? route with
  | none => simp
  | some new => cases hc : index.constant? new <;> simp [add, hc, size]; omega

/-! ## All routes -/

theorem fst_addRoutes (index : KeyIndex) (routes : List Route) :
    (index.addRoutes routes).1 = routes.foldl addRoute index := by
  induction routes generalizing index with
  | nil => rfl
  | cons route rest ih => exact ih (index.addRoute route)

theorem constant?_foldl (routes : List Route) (index : KeyIndex) (key : String) :
    (routes.foldl addRoute index).constant? key =
      (index.constant? key).or
        ((routes.find? (Declares key)).map fun r => Key.constant r.method r.path) := by
  induction routes generalizing index with
  | nil => simp
  | cons route rest ih =>
    rw [List.foldl_cons, ih, constant?_addRoute, Option.or_assoc, List.find?_cons]
    by_cases hd : Declares key route <;> simp [hd]

theorem constant?_build (routes : List Route) (key : String) :
    (build routes).constant? key =
      (routes.find? (Declares key)).map fun r => Key.constant r.method r.path := by
  rw [build, fst_addRoutes, constant?_foldl]
  rfl

theorem constant?_build_append (routes later : List Route) (key : String) :
    (build (routes ++ later)).constant? key =
      ((build routes).constant? key).or ((build later).constant? key) := by
  simp only [constant?_build, List.find?_append, Option.map_or]

theorem addRoute_of_method_ne {route : Route} (h : route.method ≠ .get) (index : KeyIndex) :
    index.addRoute route = index := by
  simp [addRoute, declared?, h]

theorem build_filter_get (routes : List Route) :
    build (routes.filter (·.method = .get)) = build routes := by
  simp only [build, fst_addRoutes]
  generalize empty = index
  induction routes generalizing index with
  | nil => rfl
  | cons route rest ih =>
    by_cases hget : route.method = .get
    · rw [List.filter_cons_of_pos (by simpa using hget), List.foldl_cons, List.foldl_cons, ih]
    · rw [List.filter_cons_of_neg (by simpa using hget), List.foldl_cons,
        addRoute_of_method_ne hget, ih]

theorem nodup_keys_foldl (routes : List Route) {index : KeyIndex} (h : index.keys.Nodup) :
    (routes.foldl addRoute index).keys.Nodup := by
  induction routes generalizing index with
  | nil => exact h
  | cons route rest ih => exact ih (nodup_keys_addRoute h route)

theorem mem_keys_build_iff {routes : List Route} {key : String} :
    key ∈ (build routes).keys ↔ key ∈ declarations routes := by
  rw [← isSome_constant?_iff, constant?_build, Option.isSome_map, List.find?_isSome,
    mem_declarations_iff]
  simp

theorem size_build (routes : List Route) :
    (build routes).size = (declarations routes).toFinset.card := by
  have hnodup : (build routes).keys.Nodup := by
    rw [build, fst_addRoutes]
    exact nodup_keys_foldl routes List.nodup_nil
  have hkeys : (build routes).keys.toFinset = (declarations routes).toFinset := by
    ext key
    simp only [List.mem_toFinset, mem_keys_build_iff]
  rw [← hkeys, List.toFinset_card_of_nodup hnodup, keys, List.length_map]
  rfl

theorem length_addRoutes_add_size (index : KeyIndex) (routes : List Route) :
    (index.addRoutes routes).2.length + (index.addRoutes routes).1.size =
      index.size + (declarations routes).length := by
  induction routes generalizing index with
  | nil => simp [addRoutes, declarations]
  | cons route rest ih =>
    -- The size of the index is what the induction carries from route to route.
    have hstep := length_repetition?_add_size index route
    have hrest := ih (index.addRoute route)
    simp only [addRoutes, declarations_cons, List.length_append]
    omega

theorem length_repetitions_add_size (routes : List Route) :
    (repetitions routes).length + (build routes).size = (declarations routes).length := by
  have h := length_addRoutes_add_size empty routes
  have hempty : empty.size = 0 := rfl
  rw [hempty, Nat.zero_add] at h
  exact h

end ClientRoutes.KeyIndex
