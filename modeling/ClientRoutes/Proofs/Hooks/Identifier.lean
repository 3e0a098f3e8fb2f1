import ClientRoutes.Proofs.Hooks.KeyFunction
import ClientRoutes.Proofs.Hooks.KeyConstant

/-
  The characters of the constant of a query key.

  A constant is not put together from words but from the segments of the path, with
  dollar signs and braces dropped, letters in capitals and underscores for hyphens.
  Whatever else a segment has stays where it is, so a dot or a colon in a path is one
  in the constant, and with it in every call of the constant.

  What is proved:
    1. `strays_capital` — what a character becomes has the strays of that character.
    2. `strays_constantPart`, `strays_constant` — and so do segments and paths.
    3. `strays_hookConstant` — constants, the index and calls.
    4. `stray_hookConstant` — a dot that gets into a call.
-/

namespace ClientRoutes

open Text Text.Letter

namespace Key

open Script

/-- The characters of a text that no identifier has, in order. -/
def strays (s : List Char) : List Char := s.filter fun c => !isIdentifierChar c

/-- Whether a character of a path is one that a constant has in capitals, that it
leaves out or that it has an underscore for. -/
def isTemplateChar (c : Char) : Bool := isIdentifierChar c || ['/', '-', '\x7b', '\x7d'].contains c

/-- The other characters of a path, in order. -/
def templateStrays (s : List Char) : List Char := s.filter fun c => !isTemplateChar c

/-- What a character of a segment becomes in a constant. -/
def capital (c : Char) : List Char :=
  (upperText ([c].filter fun c => !(['$', '\x7b', '\x7d'].contains c))).map
    fun c => if c = '-' then '_' else c

/-! ## Segments -/

/-- A stray stays what it is, and no other character leaves one behind; slashes are in
no segment. -/
theorem strays_capital {c : Char} (hc : c.toNat < 128) (hslash : c ≠ '/') :
    strays (capital c) = templateStrays [c] :=
  ascii_forall (p := fun c => c ≠ '/' → strays (capital c) = templateStrays [c])
    (by decide +kernel) hc hslash

theorem toList_constantPart (s : String) : (constantPart s).toList = s.toList.flatMap capital := by
  have hcapitals : ∀ cs : List Char,
      (upperText (cs.filter fun c => !(['$', '\x7b', '\x7d'].contains c))).map
        (fun c => if c = '-' then '_' else c) = cs.flatMap capital := by
    intro cs
    induction cs with
    | nil => rfl
    | cons c cs ih =>
      rw [List.flatMap_cons, ← ih, capital, ← List.map_append, upperText, upperText, upperText,
        ← List.flatMap_append, ← List.filter_append, List.singleton_append]
  rw [constantPart, toList_replaceChar, toUpper, String.toList_ofList, Template.bare,
    toList_without, hcapitals]

theorem strays_constantPart {s : String} (h : IsAscii s.toList) (hslash : '/' ∉ s.toList) :
    strays (constantPart s).toList = templateStrays s.toList := by
  calc strays (constantPart s).toList
      = s.toList.flatMap fun c => strays (capital c) := by
        rw [toList_constantPart, strays, List.filter_flatMap]
        rfl
    _ = s.toList.flatMap fun c => templateStrays [c] :=
        List.flatMap_congr fun c hc =>
          strays_capital (h c hc) fun heq => hslash (heq ▸ hc)
    _ = templateStrays s.toList := by
        rw [templateStrays, ← List.flatMap_singleton' s.toList, List.filter_flatMap,
          List.flatMap_singleton']
        rfl

/-! ## Paths -/

/-- Separators that are dropped anyway do not count. -/
theorem filter_intercalate {α : Type} {p : α → Bool} {separator : α} (h : p separator = false)
    (parts : List (List α)) :
    ([separator].intercalate parts).filter p = parts.flatMap (·.filter p) := by
  induction parts with
  | nil => rfl
  | cons part parts ih =>
    by_cases hnil : parts = []
    · subst hnil
      rw [List.intercalate_singleton, List.flatMap_singleton]
    · rw [List.intercalate_cons_of_ne_nil hnil, List.filter_append, List.filter_append, ih,
        List.filter_singleton, h, List.flatMap_cons]
      simp

theorem strays_intercalate (parts : List (List Char)) :
    strays (['_'].intercalate parts) = parts.flatMap strays :=
  filter_intercalate (p := fun c => !isIdentifierChar c) (by decide) parts

theorem templateStrays_intercalate (parts : List (List Char)) :
    templateStrays (['/'].intercalate parts) = parts.flatMap templateStrays :=
  filter_intercalate (p := fun c => !isTemplateChar c) (by decide) parts

/-- Parts that contribute nothing may be left out. -/
theorem flatMap_filter_of_forall {α β : Type} {p : α → Bool} {f : α → List β} {xs : List α}
    (h : ∀ x ∈ xs, p x = false → f x = []) : (xs.filter p).flatMap f = xs.flatMap f := by
  induction xs with
  | nil => rfl
  | cons x xs ih =>
    obtain ⟨hx, hxs⟩ := List.forall_mem_cons.1 h
    rw [List.flatMap_cons, ← ih hxs]
    cases hp : p x with
    | true => rw [List.filter_cons_of_pos hp, List.flatMap_cons]
    | false => rw [List.filter_cons_of_neg (by simp [hp]), hx hp, List.nil_append]

/-- All strays of a path are in its segments: there are none in slashes and in `api`. -/
theorem templateStrays_segments (path : String) :
    (segments path).flatMap (fun s => templateStrays s.toList) = templateStrays path.toList := by
  have hempty : ∀ s ∈ Template.parts path, (!s.isEmpty) = false → templateStrays s.toList = [] := by
    intro s _ hs
    have hs : s = "" := by simpa using hs
    rw [hs]
    rfl
  have hapi : ∀ s ∈ Template.segments path, (s != "api") = false →
      templateStrays s.toList = [] := by
    intro s _ hs
    have hs : s = "api" := by simpa using hs
    rw [hs]
    decide
  have hparts : (Template.parts path).flatMap (fun s => templateStrays s.toList) =
      (split '/' path.toList).flatMap templateStrays := by
    rw [Template.parts, List.flatMap_map]
    simp only [String.toList_ofList]
  calc (segments path).flatMap (fun s => templateStrays s.toList)
      = (Template.segments path).flatMap fun s => templateStrays s.toList :=
        flatMap_filter_of_forall hapi
    _ = (Template.parts path).flatMap fun s => templateStrays s.toList :=
        flatMap_filter_of_forall hempty
    _ = templateStrays (['/'].intercalate (split '/' path.toList)) := by
        rw [hparts, templateStrays_intercalate]
    _ = templateStrays path.toList := by
        rw [split_eq_splitOn, List.intercalate_splitOn]

/-- A constant has the strays of its path and no others. -/
theorem strays_constant (method : Method) {path : String} (h : IsAscii path.toList) :
    strays (constant method path).toList = templateStrays path.toList := by
  have hmethod : strays method.capitals.toList = [] := by
    cases method <;> decide
  calc strays (constant method path).toList
      = strays method.capitals.toList ++
          (segments path).flatMap fun s => strays (constantPart s).toList := by
        rw [toList_constant, strays_intercalate, List.flatMap_cons, List.flatMap_map]
    _ = (segments path).flatMap fun s => templateStrays s.toList := by
        rw [hmethod, List.nil_append]
        apply List.flatMap_congr
        intro s hs
        have hsegment : s ∈ Template.segments path := List.mem_of_mem_filter hs
        exact strays_constantPart (Template.isAscii_of_mem_segments h hsegment)
          fun hmem => (Template.mem_of_mem_segments hsegment hmem).2 rfl
    _ = templateStrays path.toList := templateStrays_segments path

/-- A constant begins with a letter, so without strays it is an identifier. -/
theorem isIdentifier_constant_iff (method : Method) (path : String) :
    isIdentifier (constant method path).toList = true ↔
      strays (constant method path).toList = [] := by
  have hfirst : (constant method path).toList.head?.any (fun c => !c.isDigit) = true := by
    rw [toList_constant]
    cases method <;> cases (segments path) <;> rfl
  rw [isIdentifier, hfirst, Bool.true_and, List.all_eq_true, strays, List.filter_eq_nil_iff]
  simp

end Key

/-! ## Calls -/

namespace KeyIndex

open Script Key

/-- For a path of ASCII the strays of a constant are those of the path, in order: what
is neither a letter, a digit, an underscore, a dollar sign, a brace, a hyphen nor a
slash. So the constant is an identifier exactly if the path has none. The index keeps
constants of GET routes only, and each call that the invalidations of a route become is
one of such a constant. -/
theorem strays_hookConstant (routes : List Route) :
    (∀ r : Route, IsAscii r.path.toList →
      strays (hookConstant routes r).toList = templateStrays r.path.toList ∧
      (isIdentifier (hookConstant routes r).toList = true ↔
        ∀ c ∈ r.path.toList, isTemplateChar c = true)) ∧
    (∀ key constant, (build routes).constant? key = some constant →
      ∃ target ∈ routes, target.method = .get ∧ constant = hookConstant routes target) ∧
    ∀ (r : Route), ∀ call ∈ (build routes).calls r,
      ∃ target ∈ routes, target.method = .get ∧
        ∃ arguments, call = hookConstant routes target ++ "(" ++ arguments ++ ")" := by
  have hfound : ∀ {key : String} {target : Route}, routes.find? (Declares key) = some target →
      target ∈ routes ∧ target.method = .get := by
    intro key target htarget
    have hdeclares : Declares key target := by simpa using List.find?_some htarget
    exact ⟨List.mem_of_find?_eq_some htarget, hdeclares.1⟩
  refine ⟨fun r hr => ?_, fun key constant hconstant => ?_, fun r call hcall => ?_⟩
  · have hstrays := strays_constant r.method hr
    refine ⟨hstrays, ?_⟩
    rw [hookConstant_eq, isIdentifier_constant_iff, hstrays, templateStrays,
      List.filter_eq_nil_iff]
    simp
  · rw [constant?_build_eq_hookConstant, Option.map_eq_some_iff] at hconstant
    obtain ⟨target, htarget, rfl⟩ := hconstant
    obtain ⟨hmem, hget⟩ := hfound htarget
    exact ⟨target, hmem, hget, rfl⟩
  · obtain ⟨entry, -, hentry⟩ := List.mem_filterMap.1 ((calls_build routes r).1 ▸ hcall)
    obtain ⟨d, -, hentry⟩ := Option.bind_eq_some_iff.1 hentry
    obtain ⟨target, htarget, hentry⟩ := Option.bind_eq_some_iff.1 hentry
    obtain ⟨hmem, hget⟩ := hfound htarget
    exact ⟨target, hmem, hget, _, (Option.some.inj hentry).symm⟩

/-- An operation with the key `ITEM`. -/
def keyed : Value := .mapping [(.text "x-query-key", .text "ITEM")]

/-- An operation after which that key is fetched again. -/
def refetching : Value := .mapping [(.text "x-invalidate-query-key", .text "ITEM")]

/-- A document with one operation of either kind, the first of them on a given path. -/
def keyedPath (path : String) : Value := .mapping [
  (.text "openapi", .text "3.0.0"),
  (.text "paths", .mapping [(.text path, .mapping [(.text "get", keyed)]),
    (.text "/items", .mapping [(.text "post", refetching)])])]

/-- The routes of such a document. -/
def keyedRoutes (path : String) : List Route :=
  [Operation.route (keyedPath path) .get path keyed none,
    Operation.route (keyedPath path) .post "/items" refetching none]

theorem ofValue_keyedPath (path : String) :
    Description.ofValue (keyedPath path) = .ok ⟨none, "3.0.0", keyedRoutes path⟩ := rfl

/-- Hyphens, braces, dollar signs and digits are in no identifier's way, and dots are. -/
theorem strays_hookConstant_items :
    (∃ r ∈ keyedRoutes "/v2/user-groups/\x7bgroup-id\x7d/$count", IsAscii r.path.toList ∧
      isIdentifier (hookConstant (keyedRoutes r.path) r).toList = true) ∧
    (∃ r ∈ keyedRoutes "/v1.0/users/\x7bname\x7d.json", IsAscii r.path.toList ∧
      strays (hookConstant (keyedRoutes r.path) r).toList = ['.', '.']) := by
  constructor
  · refine ⟨_, List.mem_cons_self, by decide +kernel, ?_⟩
    obtain ⟨hconstants, -, -⟩ :=
      strays_hookConstant (keyedRoutes "/v2/user-groups/\x7bgroup-id\x7d/$count")
    exact (hconstants _ (by decide +kernel)).2.2 (List.all_eq_true.1 (by decide +kernel))
  · refine ⟨_, List.mem_cons_self, by decide +kernel, ?_⟩
    obtain ⟨hconstants, -, -⟩ := strays_hookConstant (keyedRoutes "/v1.0/users/\x7bname\x7d.json")
    exact (hconstants _ (by decide +kernel)).1.trans (by decide +kernel)

/-- The constants and calls of a version, of a placeholder with text behind it and of
punctuation. -/
theorem stray_hookConstant :
    ["/v1.0/users", "/files/\x7bname\x7d.json", "/users:search"].map (fun path =>
        (keyedRoutes path).map fun r =>
          (hookConstant (keyedRoutes path) r, (build (keyedRoutes path)).calls r)) =
      [[("GET_V1.0_USERS", []), ("POST_ITEMS", ["GET_V1.0_USERS()"])],
        [("GET_FILES_NAME.JSON", []), ("POST_ITEMS", ["GET_FILES_NAME.JSON()"])],
        [("GET_USERS:SEARCH", []), ("POST_ITEMS", ["GET_USERS:SEARCH()"])]] ∧
    ¬∀ root d, Description.ofValue root = .ok d → ∀ r ∈ d.routes, IsAscii r.path.toList →
      ∀ c ∈ (hookConstant d.routes r).toList, isIdentifierChar c = true := by
  refine ⟨by decide +kernel, fun h => ?_⟩
  have hdot : isIdentifierChar '.' = true :=
    h _ _ (ofValue_keyedPath "/v1.0/users") _ List.mem_cons_self (by decide +kernel) '.'
      (by decide +kernel)
  exact absurd hdot (by decide)

end KeyIndex

end ClientRoutes
