import ClientRoutes.Proofs.Report.Lines
import ClientRoutes.Proofs.Report.Selection
import Mathlib.Data.List.Flatten
import Mathlib.Data.List.Perm.Basic

/-
  The sections of a report in words.

  A report in words writes its routes again, module by module: each section goes through
  all routes and takes those of its module. Nothing is lost or written twice because the
  modules of a report are those of its routes, each once, so that the sections divide
  the routes among them.

  What is proved:
    1. `flatMap_filter_perm` — taking from some routes what belongs to each of several
       different modules takes the routes of these modules, each once.
    2. `divides_sections` — the sections of a report that was built divide its routes.
    3. `text_sections` — the text is a head with the numbers of routes and sections, and
       then the sections with the blocks of their routes.
-/

namespace ClientRoutes.Report

/-- A module and the routes that are written below it. -/
structure Section where
  module : ModuleReport
  routes : List RouteReport
  deriving DecidableEq, Repr

/-- The sections of a report, in the order of the text. -/
def sections (r : Report) : List Section := r.modules.map fun m => ⟨m, r.sectionRoutes m⟩

/-- The lines of a section: those about its module, and then those of its routes. -/
def Section.lines (s : Section) : List String :=
  moduleLines s.module ++ s.routes.flatMap RouteReport.lines

/-- Some sections divide some routes among them. -/
structure Divides (sections : List Section) (routes : List RouteReport) : Prop where
  /-- The modules are in strictly increasing order of their names. -/
  increasing : (sections.map (·.module.name)).Pairwise (· < ·)
  /-- They are the modules of the routes. -/
  modules : ∀ name, name ∈ sections.map (·.module.name) ↔ ∃ r ∈ routes, r.module = name
  /-- A route stands in the section of its module, -/
  own : ∀ s ∈ sections, ∀ r ∈ s.routes, r.module = s.module.name
  /-- in the order of the routes, -/
  ordered : ∀ s ∈ sections, s.routes.Sublist routes
  /-- and each route stands in the sections as often as among the routes. -/
  perm : (sections.flatMap (·.routes)).Perm routes

/-! ## Dividing routes -/

theorem flatMap_filter_perm {names : List String} (h : names.Nodup) (routes : List RouteReport) :
    (names.flatMap fun name => routes.filter (·.module = name)).Perm
      (routes.filter (·.module ∈ names)) := by
  induction names with
  | nil => simp
  | cons name names ih =>
    obtain ⟨hname, hnames⟩ := List.nodup_cons.1 h
    let taken := routes.filter (·.module ∈ name :: names)
    -- Of the routes taken in all, those of the first module and those of the others.
    have hfirst : taken.filter (·.module = name) = routes.filter (·.module = name) := by
      rw [List.filter_filter]
      apply List.filter_congr
      intro r _
      by_cases hr : r.module = name <;> simp [hr]
    have hothers : taken.filter (fun r => !decide (r.module = name)) =
        routes.filter (·.module ∈ names) := by
      rw [List.filter_filter]
      apply List.filter_congr
      intro r _
      by_cases hr : r.module = name <;> simp [hr, hname]
    have hrest : (routes.filter (·.module = name) ++
        names.flatMap fun name => routes.filter (·.module = name)).Perm
          (routes.filter (·.module = name) ++ routes.filter (·.module ∈ names)) :=
      (ih hnames).append_left _
    rw [← hfirst, ← hothers] at hrest
    rw [List.flatMap_cons, ← hfirst]
    exact hrest.trans (List.filter_append_perm (·.module = name) taken)

/-! ## The sections of a report -/

theorem map_name_modules (s : Settings) (module : Option String) (path : String)
    (d : Description) :
    (ofDescription s module path d).modules.map (·.name) =
      moduleNames (ofDescription s module path d).routes := by
  simp only [ofDescription, List.map_map]
  exact List.map_id _

theorem map_name_sections (r : Report) :
    r.sections.map (·.module.name) = r.modules.map (·.name) := by
  rw [sections, List.map_map]
  rfl

theorem flatMap_routes_sections (r : Report) :
    r.sections.flatMap (·.routes) =
      (r.modules.map (·.name)).flatMap fun name => r.routes.filter (·.module = name) := by
  rw [sections, List.flatMap_map, List.flatMap_map]
  rfl

/-- A report whose modules are those of its routes has sections that divide them. -/
theorem divides_sections {r : Report} (h : r.modules.map (·.name) = moduleNames r.routes) :
    Divides r.sections r.routes where
  increasing := by
    rw [map_name_sections, h]
    exact pairwise_names r.routes
  modules := by
    intro name
    rw [map_name_sections, h]
    exact mem_moduleNames
  own := by
    intro s hs route hroute
    obtain ⟨m, -, rfl⟩ := List.mem_map.1 hs
    simpa using (List.mem_filter.1 hroute).2
  ordered := by
    intro s hs
    obtain ⟨m, -, rfl⟩ := List.mem_map.1 hs
    exact List.filter_sublist
  perm := by
    have hall : r.routes.filter (·.module ∈ moduleNames r.routes) = r.routes := by
      rw [List.filter_eq_self]
      intro route hroute
      exact decide_eq_true (mem_moduleNames.2 ⟨route, hroute, rfl⟩)
    have hperm := flatMap_filter_perm (nodup_moduleNames r.routes) r.routes
    rw [hall] at hperm
    rw [flatMap_routes_sections, h]
    exact hperm

/-! ## The text -/

theorem sectionText_eq_unlines (r : Report) (m : ModuleReport) :
    r.sectionText m = unlines (Section.lines ⟨m, r.sectionRoutes m⟩) := by
  have hblocks : RouteReport.text = fun route => unlines route.lines :=
    funext RouteReport.text_eq_unlines
  rw [sectionText, Section.lines, unlines_append, unlines_flatMap, sectionHead_eq_unlines, hblocks]

theorem text_eq_unlines (r : Report) :
    r.text = unlines (r.opening ++ numbers r.routes.length r.modules.length r.keyCount ++
      r.sections.flatMap Section.lines) := by
  have hsections : r.sectionText = fun m => unlines (Section.lines ⟨m, r.sectionRoutes m⟩) :=
    funext r.sectionText_eq_unlines
  rw [unlines_append, unlines_flatMap, ← head_eq_unlines, sections, List.map_map, text, hsections]
  rfl

/-- Every report that is built is about the selected routes of its document, in their
order. In words it has one section for every module of these routes, in strictly
increasing order of the names, and no other sections; a route stands in the section of its
module, in the order of the document, and each route stands in the sections as often as it
is in the report. The number of routes in the head is that of the blocks in all sections,
and the number of modules that of the sections. A section begins with the line that names
its module and ends with the blocks of its routes, and a block begins with the line that has
the method, the path and the name of its route. -/
theorem text_sections {tree : FileTree} {s : Settings} {module : Option String} {r : Report}
    {ws : List Warning} (h : build tree s module = .ok (r, ws)) :
    (∃ path d, Loads tree s path d ∧ r.routes =
      (selected module d.routes).map (RouteReport.ofRoute s.createSchema (KeyIndex.build d.routes))) ∧
    Divides r.sections r.routes ∧
    r.text = unlines (r.opening ++
      numbers (r.sections.flatMap (·.routes)).length r.sections.length r.keyCount ++
      r.sections.flatMap Section.lines) ∧
    (∀ s ∈ r.sections, ∃ about, s.lines =
      ("Module " ++ s.module.name ++ " (" ++ s.module.names.apiClass ++ ")") :: about ++
        s.routes.flatMap RouteReport.lines) ∧
    ∀ route ∈ r.routes, ∃ values, route.text = route.title ++ unlines values ∧
      route.lines = ("  " ++ route.method.capitals ++ " " ++ route.path ++
        "  [" ++ route.name.identifier ++ "]") :: values := by
  obtain ⟨path, d, hloads⟩ := (exists_build_iff module).1 ⟨_, h⟩
  obtain ⟨rfl, -⟩ : ofDescription s module path d = r ∧ warnings module d = ws := by
    simpa using (build_of_loads hloads module).symm.trans h
  have hdivides := divides_sections (map_name_modules s module path d)
  refine ⟨⟨path, d, hloads, rfl⟩, hdivides, ?_, fun s _ => ⟨_, rfl⟩, fun route _ => ⟨_, ?_, rfl⟩⟩
  · have hroutes := hdivides.perm.length_eq
    have hmodules : (ofDescription s module path d).sections.length =
        (ofDescription s module path d).modules.length := List.length_map _
    rw [hroutes, hmodules]
    exact text_eq_unlines _
  · rw [route.text_eq_unlines, route.title_eq]
    exact unlines_cons _ _

/-- A document whose modules take turns. -/
def turnsText : String :=
  "\x7b\"openapi\":3,\"paths\":\x7b\"/users\":\x7b\"get\":\x7b\x7d\x7d," ++
    "\"/orders\":\x7b\"get\":\x7b\"x-query-key\":\"ORDERS\"\x7d," ++
    "\"post\":\x7b\"x-invalidate-query-key\":\"ORDERS\",\"x-gcTime\":\"1h\"\x7d\x7d," ++
    "\"/users/me\":\x7b\"delete\":\x7b\x7d\x7d\x7d\x7d"

def turnsTree : FileTree := ⟨[(["w", "turns.json"], .file (some turnsText))], []⟩

def turnsSettings : Settings :=
  { Settings.builtIn "/w" with
    uri := some "turns.json"
    paths := [(.dto, "src/dto.ts"), (.api, "src/api.ts"), (.queries, "src/queries.ts")] }

/-- The report on that document in words. -/
def turnsLines : List String :=
  ["Route Configuration Report",
    "==========================",
    "",
    "Document:   /w/turns.json",
    "Version:    3",
    "Routes:     4",
    "Modules:    2",
    "Query keys: 1",
    "",
    "Module orders (OrdersApi)",
    "-------------",
    "  instance:      ordersApi",
    "  query keys:    ORDERS_QUERY_KEY",
    "  mutation keys: ORDERS_MUTATION_KEY",
    "  imports:       queries -> api ./api",
    "                 api -> dto ./dto",
    "",
    "  GET /orders  [getOrders]",
    "    getOrders(kyInstance?: KyInstance, options?: Options): Promise<unknown>",
    "    key:      ()=>['orders']",
    "    hooks:    useGetOrdersQuery, useGetOrdersSuspenseQuery, useGetOrdersMutation",
    "",
    "  POST /orders  [postOrders]",
    "    postOrders(kyInstance?: KyInstance, options?: Options): Promise<unknown>",
    "    key:      ()=>['orders']",
    "    hooks:    usePostOrdersQuery, usePostOrdersSuspenseQuery, usePostOrdersMutation",
    "    invalidates: GET_ORDERS()",
    "    gcTime: 1 * 60 * 60 * 1000 // 1 hour",
    "",
    "Module users (UsersApi)",
    "------------",
    "  instance:      usersApi",
    "  query keys:    USERS_QUERY_KEY",
    "  mutation keys: USERS_MUTATION_KEY",
    "  imports:       queries -> api ./api",
    "                 api -> dto ./dto",
    "",
    "  GET /users  [getUsers]",
    "    getUsers(kyInstance?: KyInstance, options?: Options): Promise<unknown>",
    "    key:      ()=>['users']",
    "    hooks:    useGetUsersQuery, useGetUsersSuspenseQuery, useGetUsersMutation",
    "",
    "  DELETE /users/me  [deleteUsersMe]",
    "    deleteUsersMe(kyInstance?: KyInstance, options?: Options): Promise<unknown>",
    "    key:      ()=>['users', 'me']",
    "    hooks:    useDeleteUsersMeQuery, useDeleteUsersMeSuspenseQuery, " ++
      "useDeleteUsersMeMutation",
    ""]

/-- Orders come first, and the two routes of users next to each other. -/
theorem text_sections_turns :
    ∃ r ws, build turnsTree turnsSettings none = .ok (r, ws) ∧ Divides r.sections r.routes ∧
      r.routes.map (·.path) = ["/users", "/orders", "/orders", "/users/me"] ∧
      r.sections.map (fun s => (s.module.name, s.routes.map (·.path))) =
        [("orders", ["/orders", "/orders"]), ("users", ["/users", "/users/me"])] ∧
      r.text = unlines turnsLines := by
  have heval : (build turnsTree turnsSettings none).toOption.map (fun r =>
      (r.1.routes.map (·.path), r.1.sections.map (fun s =>
        (s.module.name, s.routes.map (·.path))),
        r.1.opening ++ numbers 4 2 r.1.keyCount ++ r.1.sections.flatMap Section.lines)) =
      some (["/users", "/orders", "/orders", "/users/me"],
        [("orders", ["/orders", "/orders"]), ("users", ["/users", "/users/me"])],
        turnsLines) := by
    decide +kernel
  cases hbuild : build turnsTree turnsSettings none with
  | error e =>
    rw [hbuild] at heval
    cases heval
  | ok result =>
    obtain ⟨r, ws⟩ := result
    obtain ⟨-, hdivides, htext, -⟩ := text_sections hbuild
    rw [hbuild] at heval
    obtain ⟨hroutes, heval⟩ := Prod.mk.inj (Option.some.inj heval)
    obtain ⟨hsections, hlines⟩ := Prod.mk.inj heval
    have hblocks : (r.sections.flatMap (·.routes)).length = 4 := by
      have hlength := congrArg List.length hroutes
      rw [List.length_map] at hlength
      exact hdivides.perm.length_eq.trans hlength
    have hcount : r.sections.length = 2 := by
      have hlength := congrArg List.length hsections
      rwa [List.length_map] at hlength
    rw [hblocks, hcount] at htext
    exact ⟨r, ws, rfl, hdivides, hroutes, hsections, htext.trans (congrArg unlines hlines)⟩

end ClientRoutes.Report
