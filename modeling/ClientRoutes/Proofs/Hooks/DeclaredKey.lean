import ClientRoutes.Proofs.Description.Walk
import ClientRoutes.Proofs.Hooks.Directive
import ClientRoutes.Proofs.Hooks.KeyConstant
import ClientRoutes.Proofs.Number.Characters

/-
  Which declared keys an entry can name.

  A route declares its key as it is written in the document, be it a text or a number. An
  entry of a list of invalidations is read as a directive first: blanks around it are
  dropped, and its key may have neither blanks nor parentheses, commas or brackets. So a key
  can be named by an entry that repeats it exactly if it is such a key.

  What is proved:
    1. `ofText?_bare_iff` — a text is a directive for itself exactly if it is a key.
    2. `keyLiteral_text` — a number is always written as a key.
    3. `ofEntry_eq_call_iff` — what an entry that repeats a declared key becomes.
    4. `calls_declaredKey` — the calls and warnings of a route with such an entry.
    5. `declaredKey_missed` — keys that a document declares and no entry repeats.
-/

namespace ClientRoutes

/-! ## Keys -/

namespace Directive

theorem ofText?_of_keyLiteral {key : String} (h : KeyLiteral key.toList) :
    ofText? key = some ⟨key, none⟩ := by
  have hbare := Written.bare h
  rw [String.ofList_toList] at hbare
  rw [ofText?_eq_some_iff, h.trimmed.trim_eq]
  exact hbare

theorem ofText?_bare_iff {key : String} :
    (∃ d, ofText? key = some d ∧ d.key = key) ↔ KeyLiteral key.toList := by
  constructor
  · rintro ⟨d, hd, hkey⟩
    have hproper := (ofText?_eq_some_iff.1 hd).proper.key
    rwa [hkey] at hproper
  · intro h
    exact ⟨⟨key, none⟩, ofText?_of_keyLiteral h, rfl⟩

theorem isKeyChar_of_numeralChar {c : Char} (h : NumeralChar c) : isKeyChar c = true := by
  rcases h with hdigit | hother
  · have hblank := Text.isBlank_of_isDigit hdigit
    have hne : ∀ d : Char, d.isDigit = false → c ≠ d := by
      rintro d hd rfl
      rw [hd] at hdigit
      cases hdigit
    simp [isKeyChar, hblank, hne '(' rfl, hne ')' rfl, hne ',' rfl, hne '[' rfl, hne ']' rfl]
  · have hall : ['-', '.', 'e', 'i', 'n', 'f', 'a'].all isKeyChar = true := by decide
    exact List.all_eq_true.1 hall c hother

theorem keyLiteral_of_numeral {s : List Char} (h : Numeral s) : KeyLiteral s := by
  rw [← isKey_iff, isKey, Bool.and_eq_true]
  exact ⟨by simpa using h.ne_nil,
    List.all_eq_true.2 fun c hc => isKeyChar_of_numeralChar (h.characters c hc)⟩

/-- A number of a document is written as a key. -/
theorem keyLiteral_text (n : Number) : KeyLiteral n.text.toList :=
  keyLiteral_of_numeral n.numeral_text

end Directive

/-! ## Entries -/

namespace KeyIndex

open Directive (KeyLiteral)

/-- An entry that repeats a declared key names it exactly if it is a key of a directive. -/
theorem ofEntry_eq_call_iff {routes : List Route} {key : String} {first : Route}
    (hfirst : routes.find? (Declares key) = some first) :
    Outcome.ofEntry (build routes) key = .call (hookConstant routes first) key [] ↔
      KeyLiteral key.toList := by
  constructor
  · intro h
    unfold Outcome.ofEntry at h
    cases hd : Directive.ofText? key with
    | none => simp [hd] at h
    | some d =>
      cases hconstant : (build routes).constant? d.key with
      | none => simp [hd, hconstant] at h
      | some constant =>
        simp only [hd, hconstant, Outcome.call.injEq] at h
        exact Directive.ofText?_bare_iff.1 ⟨d, hd, h.2.1⟩
  · intro h
    exact ofEntry_build (Directive.ofText?_of_keyLiteral h) hfirst

/-! ## Routes with an entry -/

/-- A route with other entries in its list of invalidations. -/
def withEntries (r : Route) (entries : List String) : Route :=
  { r with extensions := { r.extensions with invalidates := entries } }

theorem call?_call_nil (constant key : String) :
    (Outcome.call constant key []).call? = some (constant ++ "()") := by
  simp [Outcome.call?, String.append_assoc]

theorem calls_insert {routes : List Route} {r : Route} {before after : List String}
    {entry constant key : String} (hr : r.extensions.invalidates = before ++ entry :: after)
    (hentry : Outcome.ofEntry (build routes) entry = .call constant key []) :
    (build routes).calls r = before.filterMap (callOf? routes) ++
      (constant ++ "()") :: after.filterMap (callOf? routes) := by
  have hcallOf : callOf? routes = Outcome.call? ∘ Outcome.ofEntry (build routes) :=
    funext fun e => (call?_ofEntry routes e).symm
  have hcall : callOf? routes entry = some (constant ++ "()") := by
    rw [← call?_ofEntry, hentry, call?_call_nil]
  rw [calls, outcomes, hr, List.filterMap_map, ← hcallOf, List.filterMap_append,
    List.filterMap_cons_some hcall]

/-- A call without arguments adds no warning. -/
theorem warnings_insert {index : KeyIndex} {r : Route} {before after : List String}
    {entry constant key : String} (hr : r.extensions.invalidates = before ++ entry :: after)
    (hentry : Outcome.ofEntry index entry = .call constant key []) :
    Hooks.warnings r index = Hooks.warnings (withEntries r (before ++ after)) index := by
  have hcalls : index.callWarnings r = index.callWarnings (withEntries r (before ++ after)) := by
    simp only [callWarnings, outcomes, hr, withEntries, List.map_append, List.map_cons,
      List.flatMap_append, List.flatMap_cons, hentry]
    rfl
  rw [Hooks.warnings, hcalls]
  rfl

/-! ## Documents -/

open Description (Spot)

variable {root : Value} {d : Description}

theorem route_mem_routes (hd : Description.ofValue root = .ok d) {s : Spot} (hs : s.In root) :
    s.route root ∈ d.routes := by
  rw [Description.routes_eq hd, ← Description.map_route_spots]
  exact List.mem_map_of_mem (Description.mem_spots_iff.2 hs)

theorem declares_route {s : Spot} (hget : s.method = .get) {v : Value}
    (hv : s.operation.get? "x-query-key" = some v) {key : String} (hkey : v.scalarText? = some key) :
    Declares key (s.route root) := by
  refine ⟨(Operation.method_route root s.method s.path s.operation s.shared).trans hget, ?_⟩
  rw [Spot.route, Operation.extensions_route]
  exact (congrArg (·.bind Value.scalarText?) hv).trans hkey

/-- Take a key that a GET operation of a document declares, as a text or as a number. An entry
that repeats it becomes a call of the constant of the first GET route with this key exactly
if the key has at least one character and neither blanks nor parentheses, commas or
brackets; a key that is given as a number always is such a key. In the hooks of any route
with this entry the call stands in the place of the entry, and there are just the warnings
that there are without the entry. -/
theorem calls_declaredKey (hd : Description.ofValue root = .ok d) {s : Spot} (hs : s.In root)
    (hget : s.method = .get) {v : Value} (hv : s.operation.get? "x-query-key" = some v)
    {key : String} (hkey : v.scalarText? = some key) :
    ∃ first ∈ d.routes, d.routes.find? (Declares key) = some first ∧
      (Outcome.ofEntry (build d.routes) key = .call (hookConstant d.routes first) key [] ↔
        KeyLiteral key.toList) ∧
      (∀ n, v = .number n → KeyLiteral key.toList) ∧
      (KeyLiteral key.toList → ∀ t : Spot, t.In root → ∀ before after,
        Operation.invalidations t.operation = before ++ key :: after →
          let r := t.route root
          let hooks := Hooks.ofRoute r (Call.ofRoute r) (build d.routes)
          r ∈ d.routes ∧
            hooks.mutation.invalidates = before.filterMap (callOf? d.routes) ++
              (hookConstant d.routes first ++ "()") :: after.filterMap (callOf? d.routes) ∧
            Hooks.warnings r (build d.routes) =
              Hooks.warnings (withEntries r (before ++ after)) (build d.routes)) := by
  obtain ⟨first, hmem, hfirst, -⟩ :=
    exists_find?_declares ⟨s.route root, route_mem_routes hd hs, declares_route hget hv hkey⟩
  have hentry := ofEntry_eq_call_iff hfirst
  refine ⟨first, hmem, hfirst, hentry, ?_, ?_⟩
  · rintro n rfl
    obtain rfl := Option.some.inj hkey
    exact Directive.keyLiteral_text n
  · intro hliteral t ht before after hentries
    have hr : (t.route root).extensions.invalidates = before ++ key :: after := by
      rw [Spot.route, Operation.extensions_route]
      exact hentries
    have hcall := hentry.2 hliteral
    exact ⟨route_mem_routes hd ht, calls_insert hr hcall, warnings_insert hr hcall⟩

/-- A document of paths with a GET operation that declares a key, and of one with a POST
operation that has some entries. -/
def keyedDocument (keys : List (String × Value)) (entries : List Value) : Value :=
  let reading (key : Value) : Value :=
    .mapping [(.text "get", .mapping [(.text "x-query-key", key)])]
  let writing : Value :=
    .mapping [(.text "post", .mapping [(.text "x-invalidate-query-key", .list entries)])]
  .mapping [(.text "openapi", .text "3.0.0"),
    (.text "paths", .mapping <|
      keys.map (fun (path, key) => (.text path, reading key)) ++ [(.text "/all", writing)])]

/-- The routes of the operations of a document. -/
def routesIn (root : Value) : List Route :=
  Description.routesOf root (Description.pathEntries root)

theorem ofValue_keyedDocument (keys : List (String × Value)) (entries : List Value) :
    Description.ofValue (keyedDocument keys entries) =
      .ok ⟨none, "3.0.0", routesIn (keyedDocument keys entries)⟩ := rfl

/-- A document that declares one key twice, as a number and as a text, and repeats it as a
number between two other entries. -/
def numbered : Value :=
  keyedDocument [("/first", .number (.integer 7)), ("/second", .text "7")]
    [.text "missing", .number (.integer 7), .text "7()"]

/-- The number calls the first route; the only warning is about the entry before it. -/
theorem calls_declaredKey_numbered :
    ∃ first ∈ routesIn numbered, ∃ r ∈ routesIn numbered,
      first.path = "/first" ∧ r.path = "/all" ∧
        Outcome.ofEntry (build (routesIn numbered)) "7" =
          .call (hookConstant (routesIn numbered) first) "7" [] ∧
        (Hooks.ofRoute r (Call.ofRoute r) (build (routesIn numbered))).mutation.invalidates =
          ["GET_FIRST()", "GET_FIRST()"] ∧
        Hooks.warnings r (build (routesIn numbered)) = [.unknownKey "postAll" "missing"] := by
  let spots := Description.spots numbered (Description.pathEntries numbered)
  have hin (i : Nat) (h : i < spots.length) : spots[i].In numbered :=
    Description.mem_spots_iff.1 (List.getElem_mem h)
  have hkey : (Value.number (.integer 7)).scalarText? = some "7" := by decide +kernel
  have hd : Description.ofValue numbered = .ok ⟨none, "3.0.0", routesIn numbered⟩ :=
    ofValue_keyedDocument _ _
  obtain ⟨first, hmem, hfirst, hcall, hnumber, hall⟩ :=
    calls_declaredKey hd (hin 0 (by decide)) rfl rfl hkey
  have hliteral := hnumber (.integer 7) rfl
  obtain ⟨hr, hcalls, hwarnings⟩ := hall hliteral spots[2] (hin 2 (by decide)) ["missing"] ["7()"]
    (by decide +kernel)
  dsimp only at hfirst hcalls
  have hpath : ((routesIn numbered).find? (Declares "7")).map (·.path) = some "/first" := by
    decide +kernel
  have hconstant : ((routesIn numbered).find? (Declares "7")).map
      (hookConstant (routesIn numbered)) = some "GET_FIRST" := by decide +kernel
  have hbefore : ["missing"].filterMap (callOf? (routesIn numbered)) = [] := by decide +kernel
  have hafter : ["7()"].filterMap (callOf? (routesIn numbered)) = ["GET_FIRST()"] := by
    decide +kernel
  rw [hfirst] at hpath hconstant
  refine ⟨first, hmem, _, hr, Option.some.inj hpath, by decide +kernel, hcall.2 hliteral, ?_, ?_⟩
  · rw [hcalls, hbefore, hafter, Option.some.inj hconstant]
    rfl
  · rw [hwarnings]
    decide +kernel

/-- Paths with their keys, all but the first of which no entry names. -/
def missedKeys : List (String × String) :=
  [("/users", "USERS"), ("/list", "USER LIST"), ("/spaced", " USERS"), ("/called", "USERS()"),
    ("/open", "A(B"), ("/close", "A)B"), ("/comma", "A,B"), ("/left", "A[B"), ("/right", "A]B")]

/-- The document with these keys, and with an entry for each of them. -/
def missed : Value :=
  keyedDocument (missedKeys.map fun (path, key) => (path, .text key))
    (missedKeys.map fun (_, key) => .text key)

/-- An entry that repeats a key with a blank, a parenthesis, a comma or a bracket is no
directive, or one for another key, whose constant is another one. -/
theorem declaredKey_missed :
    missedKeys.map (fun (_, key) => (((routesIn missed).find? (Declares key)).map
        (hookConstant (routesIn missed)), Outcome.ofEntry (build (routesIn missed)) key)) =
      [(some "GET_USERS", .call "GET_USERS" "USERS" []),
        (some "GET_LIST", .malformed "USER LIST"),
        (some "GET_SPACED", .call "GET_USERS" "USERS" []),
        (some "GET_CALLED", .call "GET_USERS" "USERS" []),
        (some "GET_OPEN", .malformed "A(B"), (some "GET_CLOSE", .malformed "A)B"),
        (some "GET_COMMA", .malformed "A,B"), (some "GET_LEFT", .malformed "A[B"),
        (some "GET_RIGHT", .malformed "A]B")] ∧
    ¬∀ root d, Description.ofValue root = .ok d → ∀ r ∈ d.routes, ∀ key, key ≠ "" →
      Declares key r → ∃ first, d.routes.find? (Declares key) = some first ∧
        (Outcome.ofEntry (build d.routes) key).call? = some (hookConstant d.routes first ++ "()") ∧
        ∀ route, (Outcome.ofEntry (build d.routes) key).warnings route = [] := by
  refine ⟨by decide +kernel, fun h => ?_⟩
  have hd : Description.ofValue missed = .ok ⟨none, "3.0.0", routesIn missed⟩ :=
    ofValue_keyedDocument _ _
  have hdeclared : ∃ r ∈ routesIn missed, Declares "USER LIST" r := by decide +kernel
  obtain ⟨r, hr, hdeclares⟩ := hdeclared
  have hmalformed :
      Outcome.ofEntry (build (routesIn missed)) "USER LIST" = .malformed "USER LIST" := by
    decide +kernel
  obtain ⟨first, -, hcall, -⟩ := h missed _ hd r hr "USER LIST" (by decide) hdeclares
  have hnone : (Outcome.ofEntry (build (routesIn missed)) "USER LIST").call? = none := by
    rw [hmalformed]
    rfl
  cases hnone.symm.trans hcall

end KeyIndex

end ClientRoutes
