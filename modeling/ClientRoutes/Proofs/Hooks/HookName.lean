import ClientRoutes.Hooks
import ClientRoutes.Proofs.Route.Additions
import ClientRoutes.Proofs.Route.UsageName

/-
  The names of hooks, and the request functions that share one.

  The hooks of a route go by the name of its request function in Pascal case. That
  name is a camel case already, so it is cut into words a second time; where the cut
  does not find the words it was made from, two functions may get hooks of one name.
  A name begins with the method, so its first letter alone tells nothing apart, and
  Pascal case merges exactly what camel case merges.

  What is proved:
    1. `capitalized_eq_iff` — for names that begin with a small letter, Pascal case
       and camel case merge the same.
    2. `camelCase_usageOf_iff` — the names of ASCII paths that are their own camel
       case.
    3. `hook_eq_iff` — the functions whose hooks share a name.
    4. `hook_merged` — two functions whose hooks do.
-/

namespace ClientRoutes

open Text Text.Letter

namespace Casing

/-! ## Names that begin with a small letter -/

/-- A text begins with a small letter of ASCII. -/
def StartsSmall (s : List Char) : Prop := ∃ c : Char, c ∈ s.head? ∧ c.toNat < 128 ∧ kind c = .lower

/-- Pascal case and camel case differ in the first letter. -/
theorem StartsSmall.exists_tail {s : List Char} (h : StartsSmall s) :
    ∃ (c : Char) (tail : List Char), c.toNat < 128 ∧ capitalized s = c.toUpper :: tail ∧
      camelChars s = c.toLower :: tail := by
  obtain ⟨c, hhead, hc, hk⟩ := h
  obtain ⟨rest, rfl⟩ := List.head?_eq_some_iff.1 hhead
  have hstarts : startsWord (c :: rest) = true := by simp [startsWord, isWordChar, hk]
  obtain ⟨d, rest', w, ws, heq, hwords⟩ := words_of_startsWord hstarts
  obtain ⟨rfl, rfl⟩ := List.cons.inj heq
  have hword : IsWord (c :: w) := isWord_of_mem_words (s := c :: rest) (by simp [hwords])
  have hsmall : ∀ d ∈ c :: w, kind d = .lower := List.forall_mem_cons.2 ⟨hk, hword.all_lower hk⟩
  -- The first word has no capital, so it does not end in a capital sigma.
  have hsigma : 'Σ' ∉ c :: w := fun hmem => absurd (hsmall 'Σ' hmem) (by decide +kernel)
  refine ⟨c, lowerText w ++ ws.flatMap capitalize, hc, ?_, ?_⟩
  · rw [capitalized, hwords, List.flatMap_cons, capitalize, (asciiCase hc).upper_eq]
    rfl
  · have hlower : lowerText (c :: w) = lower c ++ lowerText w := rfl
    rw [camelChars, hwords]
    dsimp only
    rw [lowerWord_of_not_mem hsigma, hlower, (asciiCase hc).lower_eq]
    rfl

theorem toUpper_eq_iff {c d : Char} (hc : c.toNat < 128) (hd : d.toNat < 128) :
    c.toUpper = d.toUpper ↔ c.toLower = d.toLower := by
  have hcase := asciiCase hc
  have hcase' := asciiCase hd
  constructor
  · intro h
    rw [← hcase.toLower_toUpper, h, hcase'.toLower_toUpper]
  · intro h
    rw [← hcase.toUpper_toLower, h, hcase'.toUpper_toLower]

theorem capitalized_eq_iff {s t : List Char} (hs : StartsSmall s) (ht : StartsSmall t) :
    capitalized s = capitalized t ↔ camelChars s = camelChars t := by
  obtain ⟨c, tail, hc, hcapital, hcamel⟩ := hs.exists_tail
  obtain ⟨d, tail', hd, hcapital', hcamel'⟩ := ht.exists_tail
  rw [hcapital, hcapital', hcamel, hcamel', List.cons.injEq, List.cons.injEq, toUpper_eq_iff hc hd]

theorem pascalCase_eq_iff {u v : String} (hu : StartsSmall u.toList) (hv : StartsSmall v.toList) :
    pascalCase u = pascalCase v ↔ camelCase u = camelCase v := by
  rw [← String.toList_inj, ← String.toList_inj, toList_pascalCase, toList_pascalCase,
    toList_camelCase, toList_camelCase]
  exact capitalized_eq_iff hu hv

/-! ## The letters and digits of a name -/

/-- Names of letters and digits that Pascal case merges differ in case only. -/
theorem sameIgnoringCase_of_pascalCase_eq {u v : String} (hu : IsAscii u.toList)
    (hv : IsAscii v.toList) (hwordu : ∀ c ∈ u.toList, isWordChar c = true)
    (hwordv : ∀ c ∈ v.toList, isWordChar c = true) (h : pascalCase u = pascalCase v) :
    sameIgnoringCase u v = true := by
  rw [← String.toList_inj, toList_pascalCase, toList_pascalCase] at h
  have hsmall := congrArg lowerText h
  rw [lowerText_capitalized hu, lowerText_capitalized hv, List.filter_eq_self.2 hwordu,
    List.filter_eq_self.2 hwordv] at hsmall
  exact beq_iff_eq.2 hsmall

end Casing

/-! ## The name of a request function -/

namespace RouteName

open Casing

theorem startsSmall_usageOf (m : Method) (path : String) : StartsSmall (usageOf m path).toList := by
  rw [toList_usageOf]
  cases m <;> exact ⟨_, rfl, by decide, by decide +kernel⟩

/-- The name of a request function of an ASCII path is its own camel case exactly if no
two of the words it is made from are single letters in a row. -/
theorem camelCase_usageOf_iff (m : Method) {path : String} (hpath : IsAscii path.toList) :
    camelCase (usageOf m path) = usageOf m path ↔
      (words (usageText m path).toList).IsChain Apart := by
  have hrest := isAscii_pathText hpath
  -- The method ends in a small letter, and what follows begins with none.
  have hbreaks : Breaks m.name.toList (capitalized (pathText path)) := by
    refine breaks_of_lower (fun c hc => kind_of_mem_name c (List.mem_of_mem_getLast? hc)) ?_
    rw [capitalized_eq_flatten]
    exact kind_head_flatten (isCapital_of_mem_capitals hrest)
  have hcamel : (camelCase (usageOf m path)).toList =
      m.name.toList ++ capitalized (capitalized (pathText path)) := by
    rw [toList_camelCase, toList_usageOf, camelChars_append hbreaks (by rw [words_name]; simp),
      camelChars_name]
  have hname : ∀ w ∈ (words (pathText path)).head?, Apart m.name.toList w := by
    -- No name of a method is a single letter.
    rintro w - ⟨⟨c, hc, -⟩, -⟩
    cases m <;> simp [Method.name] at hc
  rw [← String.toList_inj, hcamel, toList_usageOf, List.append_cancel_left_eq,
    capitalized_capitalized_iff hrest, words_usageText, List.isChain_cons]
  exact (and_iff_right hname).symm

end RouteName

/-! ## Hooks -/

namespace Hooks

open Casing

/-- The names of the hooks of a route. -/
def hookNames : List (Hooks → String) :=
  [fun h => h.query.hook, fun h => h.query.suspenseHook, fun h => h.mutation.hook]

theorem hook_eq_iff_pascalCase {hook : Hooks → String} (h : hook ∈ hookNames) (r s : Route)
    (index : KeyIndex) :
    hook (ofRoute r (Call.ofRoute r) index) = hook (ofRoute s (Call.ofRoute s) index) ↔
      pascalCase r.name.usage = pascalCase s.name.usage := by
  have hbase : ∀ tail : String, "use" ++ pascalCase r.name.usage ++ tail =
      "use" ++ pascalCase s.name.usage ++ tail ↔
        pascalCase r.name.usage = pascalCase s.name.usage := by
    intro tail
    rw [String.append_left_inj, String.append_right_inj]
  simp only [hookNames, List.mem_cons, List.not_mem_nil, or_false] at h
  rcases h with rfl | rfl | rfl
  · exact hbase "Query"
  · exact hbase "SuspenseQuery"
  · exact hbase "Mutation"

/-- Whatever two routes are built from: a hook of one has the name of the same hook of
the other exactly if the names of their request functions have the same camel case. So
different names that are their own camel case have different hooks. The name for a path
of ASCII is its own camel case exactly if no two of the words it is made from are single
letters in a row, and names for such paths whose hooks share a name differ in case
only. -/
theorem hook_eq_iff (m n : Method) (p q module module' : String)
    (additions additions' : List Route.Addition) (index : KeyIndex) :
    let r := Route.build m p module additions
    let s := Route.build n q module' additions'
    let hooks := fun route => ofRoute route (Call.ofRoute route) index
    (∀ hook ∈ hookNames, hook (hooks r) = hook (hooks s) ↔
      camelCase r.name.usage = camelCase s.name.usage) ∧
    (camelCase r.name.usage = r.name.usage → camelCase s.name.usage = s.name.usage →
      r.name.usage ≠ s.name.usage → ∀ hook ∈ hookNames, hook (hooks r) ≠ hook (hooks s)) ∧
    (IsAscii p.toList → (camelCase r.name.usage = r.name.usage ↔
      (words (RouteName.usageText m p).toList).IsChain Apart)) ∧
    (IsAscii p.toList → IsAscii q.toList → ∀ hook ∈ hookNames, hook (hooks r) = hook (hooks s) →
      sameIgnoringCase r.name.usage s.name.usage = true) := by
  intro r s hooks
  have hr : r.name.usage = RouteName.usageOf m p := Route.usage_build m p module additions
  have hs : s.name.usage = RouteName.usageOf n q := Route.usage_build n q module' additions'
  have hpascal : ∀ hook ∈ hookNames, hook (hooks r) = hook (hooks s) ↔
      pascalCase r.name.usage = pascalCase s.name.usage :=
    fun hook h => hook_eq_iff_pascalCase h r s index
  have hcamel : ∀ hook ∈ hookNames, hook (hooks r) = hook (hooks s) ↔
      camelCase r.name.usage = camelCase s.name.usage := by
    intro hook h
    rw [hpascal hook h, hr, hs]
    exact pascalCase_eq_iff (RouteName.startsSmall_usageOf m p) (RouteName.startsSmall_usageOf n q)
  refine ⟨hcamel, fun hsame hsame' hne hook h heq => ?_, fun hp => ?_, fun hp hq hook h heq => ?_⟩
  · have hboth := (hcamel hook h).1 heq
    rw [hsame, hsame'] at hboth
    exact hne hboth
  · rw [hr]
    exact RouteName.camelCase_usageOf_iff m hp
  · rw [hpascal hook h, hr, hs] at heq
    rw [hr, hs]
    obtain ⟨hascii, hword⟩ := RouteName.isAscii_usageOf m hp
    obtain ⟨hascii', hword'⟩ := RouteName.isAscii_usageOf n hq
    exact sameIgnoringCase_of_pascalCase_eq hascii hascii' hword hword' heq

/-- The names of `/users/{id}` and `/users/id` are their own camel cases. -/
theorem hook_ne_users :
    let r := Route.build .get "/users/\x7bid\x7d" "users" []
    let s := Route.build .get "/users/id" "users" []
    r.name.usage = "getUsersById" ∧ s.name.usage = "getUsersId" ∧
      (∀ hook ∈ hookNames, hook (ofRoute r (Call.ofRoute r) .empty) ≠
        hook (ofRoute s (Call.ofRoute s) .empty)) := by
  intro r s
  have hr : r.name.usage = "getUsersById" := by decide +kernel
  have hs : s.name.usage = "getUsersId" := by decide +kernel
  refine ⟨hr, hs, ?_⟩
  obtain ⟨-, hdifferent, -, -⟩ := hook_eq_iff .get .get "/users/\x7bid\x7d" "/users/id"
    "users" "users" [] [] .empty
  exact hdifferent (by decide +kernel) (by decide +kernel) (by decide +kernel)

/-- The single letters of `/a/b` are read as one word, as are the two capitals of `ß`. -/
theorem hook_merged :
    (let r := Route.build .get "/a/b" "a" []
     let s := Route.build .get "/ab" "ab" []
     r.name.usage = "getAB" ∧ s.name.usage = "getAb" ∧
      hookNames.map (fun hook => hook (ofRoute r (Call.ofRoute r) .empty)) =
        ["useGetAbQuery", "useGetAbSuspenseQuery", "useGetAbMutation"] ∧
      hookNames.map (fun hook => hook (ofRoute s (Call.ofRoute s) .empty)) =
        ["useGetAbQuery", "useGetAbSuspenseQuery", "useGetAbMutation"]) ∧
    (let r := Route.build .get "/ß" "ß" []
     let s := Route.build .get "/ss" "ss" []
     r.name.usage = "getSS" ∧ s.name.usage = "getSs" ∧
      ∀ hook ∈ hookNames, hook (ofRoute r (Call.ofRoute r) .empty) =
        hook (ofRoute s (Call.ofRoute s) .empty)) := by
  refine ⟨⟨?_, ?_, ?_, ?_⟩, ?_, ?_, ?_⟩
  all_goals decide +kernel

end Hooks

end ClientRoutes
