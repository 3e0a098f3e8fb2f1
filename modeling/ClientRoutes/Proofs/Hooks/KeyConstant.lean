import ClientRoutes.Description
import ClientRoutes.Proofs.Hooks.Invalidation
import ClientRoutes.Proofs.Route.Segments
import Mathlib.Data.List.Basic

/-
  The constants of query keys, and the routes that share one.

  A constant is the method and the segments of the path in capitals, joined by
  underscores. Hyphens become underscores too, so what can be read back from a
  constant are not the segments but the pieces that slashes, hyphens and underscores
  cut a path into. Segments that are just `api` are left out, dollar signs and braces
  do not count, and neither does the case of letters.

  What is proved:
    1. `isCut_of_mem_upper` — other characters have no hyphens or underscores for capitals.
    2. `split_constant` — a constant is cut into its method and its pieces.
    3. `constant_eq_iff` — two constants are the same exactly if method and pieces are.
    4. `hookConstant_eq_iff` — which GET routes a call of a constant names.
    5. `hookConstant_shared` — different paths with one constant.
-/

namespace ClientRoutes

open Text Text.Letter

namespace Key

/-- A character that ends a piece of a segment. -/
def isCut (c : Char) : Bool := c == '-' || c == '_'

/-- The pieces of a path between slashes, hyphens and underscores, in capitals. -/
def pieces (path : String) : List (List Char) :=
  (segments path).flatMap fun s => ((Template.bare s).toList.splitOnP isCut).map upperText

/-! ## One segment -/

theorem isCut_eq_true_iff {c : Char} : isCut c = true ↔ c.toNat ∈ [45, 95] := by
  have hhyphen : '-'.toNat = 45 := rfl
  have hunderscore : '_'.toNat = 95 := rfl
  rw [isCut, Bool.or_eq_true, beq_iff_eq, beq_iff_eq, ← Char.toNat_inj, ← Char.toNat_inj, hhyphen,
    hunderscore, List.mem_pair]

theorem isCut_of_mem_upper {c d : Char} (hd : d ∈ upper c) : isCut d = isCut c := by
  refine eq_of_mem_case isCut_eq_true_iff (by decide) (by decide +kernel) (by decide +kernel) ?_ hd
  intro c hc d hd
  have hd : d ∈ upper c := hd
  rw [(asciiCase hc).upper_eq, List.mem_singleton] at hd
  rw [hd]
  exact ascii_forall (p := fun c => isCut c.toUpper = isCut c) (by decide +kernel) hc

theorem upper_of_isCut {c : Char} (h : isCut c = true) : upper c = [c] := by
  simp only [isCut, Bool.or_eq_true, beq_iff_eq] at h
  rcases h with rfl | rfl
  · decide +kernel
  · decide +kernel

/-- In capitals and with underscores for hyphens, a text is cut at the underscores into
its pieces in capitals. -/
theorem split_capitals (s : List Char) :
    split '_' ((upperText s).map fun c => if c = '-' then '_' else c) =
      (s.splitOnP isCut).map upperText := by
  induction s with
  | nil => rfl
  | cons c s ih =>
    have hupper : upperText (c :: s) = upper c ++ upperText s := rfl
    rw [hupper, List.map_append, List.splitOnP_cons_eq_if_modifyHead]
    by_cases hc : isCut c = true
    · -- A hyphen or an underscore stays one character and becomes the separator.
      have hseparator : (upper c).map (fun c => if c = '-' then '_' else c) = ['_'] := by
        rw [upper_of_isCut hc]
        simp only [isCut, Bool.or_eq_true, beq_iff_eq] at hc
        rcases hc with rfl | rfl <;> rfl
      rw [hseparator, if_pos hc, List.map_cons, ← ih]
      exact split_append '_' [] _
    · -- All that another character becomes goes to the piece behind it.
      have hnot : ∀ d ∈ upper c, d ≠ '-' ∧ d ≠ '_' := by
        intro d hd
        have hcut := isCut_of_mem_upper hd
        rw [Bool.not_eq_true] at hc
        rw [hc, isCut, Bool.or_eq_false_iff, beq_eq_false_iff_ne, beq_eq_false_iff_ne] at hcut
        exact hcut
      have hsame : (upper c).map (fun c => if c = '-' then '_' else c) = upper c :=
        (List.map_congr_left fun d hd => if_neg (hnot d hd).1).trans (List.map_id _)
      have hfront : '_' ∉ upper c := fun hmem => (hnot '_' hmem).2 rfl
      obtain ⟨piece, rest, hpieces⟩ :=
        List.exists_cons_of_ne_nil (List.splitOnP_ne_nil isCut s)
      rw [hsame, split_append_of_not_mem hfront, ih, if_neg hc, hpieces]
      rfl

/-! ## A whole path -/

theorem toList_constant (method : Method) (path : String) :
    (constant method path).toList = ['_'].intercalate
      (method.capitals.toList :: (segments path).map fun s => (constantPart s).toList) := by
  rw [constant, String.toList_intercalate, List.map_cons, List.map_map]
  rfl

theorem split_constant (method : Method) (path : String) :
    split '_' (constant method path).toList = method.capitals.toList :: pieces path := by
  have hmethod : split '_' method.capitals.toList = [method.capitals.toList] := by
    cases method <;> decide
  have hsegment : ∀ s : String, split '_' (constantPart s).toList =
      ((Template.bare s).toList.splitOnP isCut).map upperText := by
    intro s
    rw [constantPart, toList_replaceChar, toUpper, String.toList_ofList, split_capitals]
  rw [toList_constant, split_intercalate_flatMap (List.cons_ne_nil _ _), List.flatMap_cons, hmethod,
    List.flatMap_map, pieces]
  simp only [hsegment]
  rfl

theorem capitals_inj {m n : Method} : m.capitals = n.capitals ↔ m = n := by
  cases m <;> cases n <;> decide

/-- A constant keeps the method and the pieces of the path, and nothing else. -/
theorem constant_eq_iff {m n : Method} {p q : String} :
    constant m p = constant n q ↔ m = n ∧ pieces p = pieces q := by
  rw [← String.toList_inj, ← @split_inj '_', split_constant, split_constant,
    List.cons.injEq, String.toList_inj, capitals_inj]

/-- Without hyphens and underscores the pieces are the segments. -/
theorem pieces_of_forall {path : String} (h : ∀ c ∈ path.toList, isCut c = false) :
    pieces path = (segments path).map fun s => upperText (Template.bare s).toList := by
  rw [pieces, List.map_eq_flatMap]
  apply List.flatMap_congr
  intro s hs
  have hbare : ∀ c ∈ (Template.bare s).toList, isCut c = false := by
    intro c hc
    rw [Template.bare, toList_without] at hc
    have hsegment : s ∈ Template.segments path := List.mem_of_mem_filter hs
    exact h c (Template.mem_of_mem_segments hsegment (List.mem_of_mem_filter hc)).1
  rw [List.splitOnP_eq_singleton hbare]
  rfl

end Key

/-! ## Calls -/

namespace KeyIndex

theorem hookConstant_eq (routes : List Route) (r : Route) :
    hookConstant routes r = Key.constant r.method r.path := rfl

theorem hookConstant_get_iff (routes : List Route) {r s : Route} (hr : r.method = .get)
    (hs : s.method = .get) :
    hookConstant routes r = hookConstant routes s ↔ Key.pieces r.path = Key.pieces s.path := by
  rw [hookConstant_eq, hookConstant_eq, Key.constant_eq_iff, hr, hs]
  exact and_iff_right rfl

theorem exists_find?_declares {routes : List Route} {key : String}
    (h : ∃ r ∈ routes, Declares key r) :
    ∃ target ∈ routes, routes.find? (Declares key) = some target ∧ target.method = .get := by
  have hfound : (routes.find? (Declares key)).isSome = true := by
    rw [List.find?_isSome]
    simpa using h
  obtain ⟨target, htarget⟩ := Option.isSome_iff_exists.1 hfound
  have hdeclares : Declares key target := by simpa using List.find?_some htarget
  exact ⟨target, List.mem_of_find?_eq_some htarget, htarget, hdeclares.1⟩

theorem ofEntry_build {routes : List Route} {entry : String} {d : Directive} {target : Route}
    (hd : Directive.ofText? entry = some d) (htarget : routes.find? (Declares d.key) = some target) :
    Outcome.ofEntry (build routes) entry =
      .call (hookConstant routes target) d.key (d.arguments.getD []) := by
  rw [Outcome.ofEntry, hd]
  dsimp only
  rw [constant?_build_eq_hookConstant, htarget]
  rfl

/-- Two GET routes have one constant exactly if their paths have the same pieces; if
there are no hyphens and underscores in the paths, exactly if their segments other than
`api` agree without dollar signs and braces and in capitals. An entry with a key that
some GET route declares calls the constant of the first such route, and among the GET
routes this constant names all those whose paths have the same pieces as the path of
that route, and no others. -/
theorem hookConstant_eq_iff (routes : List Route) :
    (∀ r ∈ routes, ∀ s ∈ routes, r.method = .get → s.method = .get →
      (hookConstant routes r = hookConstant routes s ↔ Key.pieces r.path = Key.pieces s.path) ∧
      ((∀ c ∈ r.path.toList ++ s.path.toList, c ≠ '-' ∧ c ≠ '_') →
        (hookConstant routes r = hookConstant routes s ↔
          (Key.segments r.path).map (fun x => Letter.upperText (Template.bare x).toList) =
            (Key.segments s.path).map fun x => Letter.upperText (Template.bare x).toList))) ∧
    ∀ entry d, Directive.ofText? entry = some d → (∃ r ∈ routes, Declares d.key r) →
      ∃ target ∈ routes, routes.find? (Declares d.key) = some target ∧
        Outcome.ofEntry (build routes) entry =
          .call (hookConstant routes target) d.key (d.arguments.getD []) ∧
        ∀ r ∈ routes, r.method = .get →
          (hookConstant routes r = hookConstant routes target ↔
            Key.pieces r.path = Key.pieces target.path) := by
  constructor
  · intro r _ s _ hr hs
    refine ⟨hookConstant_get_iff routes hr hs, fun hcuts => ?_⟩
    have hnot : ∀ c ∈ r.path.toList ++ s.path.toList, Key.isCut c = false := by
      intro c hc
      simpa [Key.isCut] using hcuts c hc
    obtain ⟨hnotr, hnots⟩ := List.forall_mem_append.1 hnot
    rw [hookConstant_get_iff routes hr hs, Key.pieces_of_forall hnotr, Key.pieces_of_forall hnots]
  · intro entry d hd hdeclared
    obtain ⟨target, hmem, htarget, hget⟩ := exists_find?_declares hdeclared
    exact ⟨target, hmem, htarget, ofEntry_build hd htarget,
      fun r _ hr => hookConstant_get_iff routes hr hget⟩

/-- A document with a path that declares a key, and paths that differ from it or from
each other only by what a constant leaves out. -/
def sharing : Value :=
  let me : Value := .mapping [
    (.text "get", .mapping [(.text "x-query-key", .text "ME")]),
    (.text "post", .mapping [(.text "x-invalidate-query-key", .text "ME")])]
  let others :=
    ["/api/me", "/Me", "/me/\x7bid\x7d", "/me/$id", "/me/id", "/me-id", "/me_id"]
  .mapping [(.text "openapi", .text "3.0.0"),
    (.text "paths", .mapping <| (.text "/me", me) ::
      others.map fun path => (.text path, .mapping [(.text "get", .null)]))]

/-- The routes of that document. -/
def sharingRoutes : List Route :=
  Description.routesOf sharing (((sharing.get? "paths").bind Value.entries?).getD [])

theorem ofValue_sharing : Description.ofValue sharing = .ok ⟨none, "3.0.0", sharingRoutes⟩ := rfl

/-- `/me/{id}` and `/me-id` have the same pieces, and an entry calls the key `ME`. -/
theorem hookConstant_eq_iff_sharing :
    (∃ r ∈ sharingRoutes, ∃ s ∈ sharingRoutes, r.path = "/me/\x7bid\x7d" ∧ s.path = "/me-id" ∧
      hookConstant sharingRoutes r = hookConstant sharingRoutes s) ∧
    ∃ target ∈ sharingRoutes, Outcome.ofEntry (build sharingRoutes) "ME" =
        .call (hookConstant sharingRoutes target) "ME" [] ∧
      ∀ r ∈ sharingRoutes, r.method = .get →
        (hookConstant sharingRoutes r = hookConstant sharingRoutes target ↔
          Key.pieces r.path = Key.pieces target.path) := by
  obtain ⟨hpairs, hentries⟩ := hookConstant_eq_iff sharingRoutes
  constructor
  · refine ⟨sharingRoutes[4], List.getElem_mem _, sharingRoutes[7], List.getElem_mem _,
      by decide +kernel, by decide +kernel, ?_⟩
    exact (hpairs _ (List.getElem_mem _) _ (List.getElem_mem _) rfl rfl).1.2 (by decide +kernel)
  · obtain ⟨target, hmem, -, hcall, hnames⟩ :=
      hentries "ME" ⟨"ME", none⟩ (by decide +kernel)
        ⟨sharingRoutes[0], List.getElem_mem _, by decide +kernel⟩
    exact ⟨target, hmem, hcall, hnames⟩

/-- The constant that the entry of the second route calls is that of three routes, and
the other routes share another one. -/
theorem hookConstant_shared :
    Description.ofValue sharing = .ok ⟨none, "3.0.0", sharingRoutes⟩ ∧
      sharingRoutes.map (fun r =>
        (r.method, r.path, hookConstant sharingRoutes r, (build sharingRoutes).calls r)) =
          [(.get, "/me", "GET_ME", []), (.post, "/me", "POST_ME", ["GET_ME()"]),
            (.get, "/api/me", "GET_ME", []), (.get, "/Me", "GET_ME", []),
            (.get, "/me/\x7bid\x7d", "GET_ME_ID", []), (.get, "/me/$id", "GET_ME_ID", []),
            (.get, "/me/id", "GET_ME_ID", []), (.get, "/me-id", "GET_ME_ID", []),
            (.get, "/me_id", "GET_ME_ID", [])] ∧
      ¬∀ r ∈ sharingRoutes, ∀ s ∈ sharingRoutes, r.method = .get → s.method = .get →
        Template.segments r.path ≠ Template.segments s.path →
          hookConstant sharingRoutes r ≠ hookConstant sharingRoutes s := by
  refine ⟨ofValue_sharing, by decide +kernel, fun h => ?_⟩
  -- `/me` and `/api/me`
  have hne : hookConstant sharingRoutes sharingRoutes[0] ≠
      hookConstant sharingRoutes sharingRoutes[2] :=
    h _ (List.getElem_mem _) _ (List.getElem_mem _) rfl rfl (by decide +kernel)
  exact hne (by decide +kernel)

end KeyIndex

end ClientRoutes
