import ClientRoutes.Report
import Mathlib.Data.List.Basic
import Mathlib.Data.List.Flatten

/-
  The report on one module, against the report on the whole document.

  A report may be limited to the routes of one module. The limit applies after the query
  keys are collected, so a route may still refer to the keys of other modules; and the
  modules of a report are found from its routes, so they are limited with them. What is
  left is the whole report with the other routes and modules taken out.

  What is proved:
    1. `exists_build_iff` — a report is made exactly if the document loads.
    2. `moduleNames_filter` — the modules of some routes, with the other ones left out.
    3. `ofDescription_some` — the report on one module is the whole one, filtered.
    4. `build_filtered` — the two runs side by side.
-/

namespace ClientRoutes.Report

/-- The settings name a file at a path, and it holds a description with routes. -/
structure Loads (tree : FileTree) (s : Settings) (path : String) (d : Description) : Prop where
  named : ∃ uri, s.uri = some uri ∧ isRemote uri = false ∧ path = PathText.join s.directory uri
  described : ∃ text, tree.read? path = some text ∧ describe path text = .ok d
  routes_ne_nil : d.routes ≠ []

/-! ## Loading -/

theorem documentPath_eq_ok_iff {s : Settings} {path : String} :
    documentPath s = .ok path ↔
      ∃ uri, s.uri = some uri ∧ isRemote uri = false ∧ path = PathText.join s.directory uri := by
  unfold documentPath
  cases s.uri with
  | none => simp
  | some uri =>
    cases hremote : isRemote uri with
    | true => simp [hremote]
    | false => simpa [hremote] using eq_comm

theorem readDocument_eq_ok_iff {tree : FileTree} {path : String} {d : Description} :
    readDocument tree path = .ok d ↔
      (∃ text, tree.read? path = some text ∧ describe path text = .ok d) ∧ d.routes ≠ [] := by
  unfold readDocument
  cases tree.read? path with
  | none => simp
  | some text =>
    cases h : describe path text with
    | error cause => simp [h]
    | ok d' =>
      have hroutes : (if d'.routes.isEmpty then Except.error (Failure.noRoutes path) else .ok d') =
          .ok d ↔ d' = d ∧ d.routes ≠ [] := by
        by_cases hnil : d'.routes = []
        · rw [if_pos (List.isEmpty_iff.2 hnil)]
          refine iff_of_false nofun ?_
          rintro ⟨rfl, hne⟩
          exact hne hnil
        · rw [if_neg (List.isEmpty_iff.not.2 hnil), Except.ok.injEq]
          exact (and_iff_left_of_imp fun heq => heq ▸ hnil).symm
      simpa [h] using hroutes

theorem loads_iff {tree : FileTree} {s : Settings} {path : String} {d : Description} :
    Loads tree s path d ↔ documentPath s = .ok path ∧ readDocument tree path = .ok d := by
  rw [documentPath_eq_ok_iff, readDocument_eq_ok_iff]
  exact ⟨fun h => ⟨h.named, h.described, h.routes_ne_nil⟩, fun h => ⟨h.1, h.2.1, h.2.2⟩⟩

theorem build_of_loads {tree : FileTree} {s : Settings} {path : String} {d : Description}
    (h : Loads tree s path d) (module : Option String) :
    build tree s module = .ok (ofDescription s module path d, warnings module d) := by
  obtain ⟨hpath, hread⟩ := loads_iff.1 h
  simp only [build, hpath, hread, bind, Except.bind, pure, Except.pure]

/-- Whether a report is made is up to the document, not to the module. -/
theorem exists_build_iff {tree : FileTree} {s : Settings} (module : Option String) :
    (∃ r, build tree s module = .ok r) ↔ ∃ path d, Loads tree s path d := by
  constructor
  · rintro ⟨r, hr⟩
    cases hpath : documentPath s with
    | error e =>
      rw [build, hpath] at hr
      cases hr
    | ok path =>
      cases hread : readDocument tree path with
      | error e =>
        simp only [build, hpath, hread, bind, Except.bind] at hr
        cases hr
      | ok d => exact ⟨path, d, loads_iff.2 ⟨hpath, hread⟩⟩
  · rintro ⟨path, d, h⟩
    exact ⟨_, build_of_loads h module⟩

/-! ## The names of modules -/

theorem mem_moduleNames {routes : List RouteReport} {name : String} :
    name ∈ moduleNames routes ↔ ∃ r ∈ routes, r.module = name := by
  induction routes with
  | nil => simp [moduleNames]
  | cons r routes ih =>
    have hcons : moduleNames (r :: routes) = insertName r.module (moduleNames routes) := rfl
    rw [hcons, mem_insertName, ih, List.exists_mem_cons_iff, eq_comm]

theorem nodup_moduleNames (routes : List RouteReport) : (moduleNames routes).Nodup :=
  (pairwise_names routes).imp fun hlt => String.ne_of_lt hlt

/-- The modules of the routes of one module are this module, if it has routes. -/
theorem moduleNames_filter (routes : List RouteReport) (m : String) :
    moduleNames (routes.filter (·.module == m)) = (moduleNames routes).filter (· == m) := by
  have hall : ∀ name ∈ moduleNames (routes.filter (·.module == m)), (name == m) = true := by
    intro name hname
    obtain ⟨r, hr, rfl⟩ := mem_moduleNames.1 hname
    exact (List.mem_filter.1 hr).2
  have hmem : m ∈ moduleNames (routes.filter (·.module == m)) ↔ m ∈ moduleNames routes := by
    rw [mem_moduleNames, mem_moduleNames]
    constructor
    · rintro ⟨r, hr, h⟩
      exact ⟨r, List.mem_of_mem_filter hr, h⟩
    · rintro ⟨r, hr, h⟩
      exact ⟨r, List.mem_filter.2 ⟨hr, beq_iff_eq.2 h⟩, h⟩
  -- Either list holds the module once or not at all.
  rw [← List.filter_eq_self.2 hall, List.filter_beq, List.filter_beq, (nodup_moduleNames _).count,
    (nodup_moduleNames _).count]
  simp only [hmem]

/-! ## One module -/

theorem selected_none (routes : List Route) : selected none routes = routes :=
  List.filter_eq_self.2 fun _ _ => rfl

theorem map_selected (m : String) (createSchema : Bool) (index : KeyIndex) (routes : List Route) :
    (selected (some m) routes).map (RouteReport.ofRoute createSchema index) =
      (routes.map (RouteReport.ofRoute createSchema index)).filter (·.module == m) := by
  rw [List.filter_map]
  rfl

theorem ofDescription_some (s : Settings) (m path : String) (d : Description) :
    let whole := ofDescription s none path d
    ofDescription s (some m) path d =
      { whole with
        modules := whole.modules.filter (·.name == m)
        routes := whole.routes.filter (·.module == m) } := by
  have hmodules : ∀ names : List String,
      (names.map (ModuleReport.ofName s.layout)).filter (·.name == m) =
        (names.filter (· == m)).map (ModuleReport.ofName s.layout) := by
    intro names
    rw [List.filter_map]
    rfl
  simp only [ofDescription, selected_none, map_selected, moduleNames_filter, hmodules]

theorem warnings_some_sublist (m : String) (d : Description) :
    (warnings (some m) d).Sublist (warnings none d) := by
  have hselected : (selected (some m) d.routes).Sublist (selected none d.routes) := by
    rw [selected_none]
    exact List.filter_sublist
  exact (hselected.flatMap _).append_left _

/-- Whenever the document of the settings loads, the report on a module is made as well as
the report on the whole document. The whole report is about every route of the document.
The report on a module holds the same routes and modules as the whole one, in the same
order, but for those of other modules; all else is the same, and there are no further
warnings. -/
theorem build_filtered {tree : FileTree} {s : Settings} {path : String} {d : Description}
    (h : Loads tree s path d) (m : String) :
    ∃ whole part warnings warnings',
      build tree s none = .ok (whole, warnings) ∧ build tree s (some m) = .ok (part, warnings') ∧
      whole.routes = d.routes.map (RouteReport.ofRoute s.createSchema (KeyIndex.build d.routes)) ∧
      part.routes = whole.routes.filter (·.module == m) ∧
      part.modules = whole.modules.filter (·.name == m) ∧
      part.keyCount = whole.keyCount ∧ part.title = whole.title ∧ part.version = whole.version ∧
      part.document = whole.document ∧ part.createSchema = whole.createSchema ∧
      part.projectTemplate = whole.projectTemplate ∧ warnings'.Sublist warnings := by
  refine ⟨_, _, _, _, build_of_loads h none, build_of_loads h (some m), ?_, ?_, ?_, rfl, rfl, rfl,
    rfl, rfl, rfl, warnings_some_sublist m d⟩
  · simp only [ofDescription, selected_none]
  · exact congrArg Report.routes (ofDescription_some s m path d)
  · exact congrArg Report.modules (ofDescription_some s m path d)

/-- A document whose orders refer to the key of the users. -/
def shopText : String :=
  "\x7b\"openapi\": \"3.0.0\", \"paths\": \x7b" ++
    "\"/users\": \x7b\"get\": \x7b\"x-query-key\": \"USERS\"\x7d\x7d, " ++
    "\"/orders\": \x7b\"post\": \x7b\"x-invalidate-query-key\": \"USERS\", " ++
    "\"x-stale-time\": \"5m\"\x7d\x7d\x7d\x7d"

def shopTree : FileTree := ⟨[(["w", "shop.json"], .file (some shopText))], []⟩

def shopSettings : Settings := { Settings.builtIn "/w" with uri := some "shop.json" }

/-- Without the users in the report, the orders still refer to their key. -/
theorem build_filtered_shop :
    ∃ path d, Loads shopTree shopSettings path d ∧
      ∃ whole part warnings warnings',
        build shopTree shopSettings none = .ok (whole, warnings) ∧
        build shopTree shopSettings (some "orders") = .ok (part, warnings') ∧
        part.routes = whole.routes.filter (·.module == "orders") ∧
        part.modules = whole.modules.filter (·.name == "orders") ∧
        part.keyCount = whole.keyCount ∧
        part.routes.map (fun r =>
          (r.path, r.hooks.mutation.invalidates, r.hooks.staleTime.map (·.expression))) =
            [("/orders", ["GET_USERS()"], some "5 * 60 * 1000")] := by
  have heval : ((build shopTree shopSettings (some "orders")).toOption.map fun r => r.1.routes.map
      fun r => (r.path, r.hooks.mutation.invalidates, r.hooks.staleTime.map (·.expression))) =
        some [("/orders", ["GET_USERS()"], some "5 * 60 * 1000")] := by decide +kernel
  obtain ⟨path, d, hloads⟩ : ∃ path d, Loads shopTree shopSettings path d := by
    apply (exists_build_iff (some "orders")).1
    cases h : build shopTree shopSettings (some "orders") with
    | error e =>
      rw [h] at heval
      cases heval
    | ok r => exact ⟨r, rfl⟩
  obtain ⟨whole, part, ws, ws', hwhole, hpart, -, hroutes, hmodules, hcount, -⟩ :=
    build_filtered hloads "orders"
  rw [hpart] at heval
  exact ⟨path, d, hloads, whole, part, ws, ws', hwhole, hpart, hroutes, hmodules, hcount,
    Option.some.inj heval⟩

end ClientRoutes.Report
