import ClientRoutes.Proofs.Layout.Import
import ClientRoutes.Proofs.Path.Climbing
import ClientRoutes.Proofs.Path.Joining

/-
  Where the file of a module is.

  A location keeps two paths: the one that the settings give, and the absolute one
  that it leads to. The name of a module is put into the texts of both, so into
  the second one after it was normalized. A name of a step may then become empty or
  `..`, which only an empty module name brings about, and the working directory may
  have the placeholder in it.

  What is proved:
    1. `foldl_ofText_substitute` — where a path leads that is filled in.
    2. `foldl_filterMap_fill` — filling in and taking back, in either order.
    3. `placed_eq_file` — when the absolute path is where the other one leads.
-/

namespace ClientRoutes.Location

open ClientRoutes.Path (Step ProperName AllNames Settled advance net)

variable {module : String}

/-! ## Steps that are filled in -/

/-- The step that a step becomes, if it stays one. -/
def fill (module : String) : Step → Option Step
  | .here => none
  | .up => some .up
  | .name s => Step.ofPart? false (substitute module s).toList

theorem fill_of_properName {s : String} (h : ProperName (substitute module s)) :
    fill module (.name s) = some (.name (substitute module s)) :=
  Step.Proper.ofPart?_part (s := .name (substitute module s)) h

theorem ofPart?_replaceFrom_eq_bind (part : List Char) :
    Step.ofPart? false (Text.replaceFrom placeholder.toList module.toList 0 part) =
      (Step.ofPart? false part).bind (fill module) := by
  by_cases hnil : part = []
  · subst hnil
    rfl
  by_cases hdot : part = ['.']
  · subst hdot
    rw [ofPart?_replaceFrom fun s hs => by cases hs]
    rfl
  by_cases hup : part = ['.', '.']
  · subst hup
    rw [ofPart?_replaceFrom fun s hs => by cases hs]
    rfl
  · rw [Path.ofPart?_of_ne hnil hdot hup, Option.bind_some, fill, toList_substitute,
      String.toList_ofList]

/-- A `.` in front of a path is lost. -/
theorem filterMap_stepsOf (parts : List (List Char)) :
    (Path.stepsOf parts).filterMap (fill module) =
      (parts.filterMap (Step.ofPart? false)).filterMap (fill module) := by
  rcases Path.stepsOf_eq_or parts with h | h
  · rw [h]
  · rw [h]
    rfl

/-- A path that is filled in leads where its steps lead that are filled in. -/
theorem foldl_ofText_substitute (hslash : '/' ∉ module.toList) (s : String) (base : List Step) :
    (Path.ofText (substitute module s)).steps.foldl advance base =
      ((Path.ofText s).steps.filterMap (fill module)).foldl advance base := by
  have hparts : ((Text.split '/' s.toList).map
        (Text.replaceFrom placeholder.toList module.toList 0)).filterMap (Step.ofPart? false) =
      ((Text.split '/' s.toList).filterMap (Step.ofPart? false)).filterMap (fill module) := by
    rw [List.filterMap_map, List.filterMap_filterMap]
    exact List.filterMap_congr fun part _ => ofPart?_replaceFrom_eq_bind part
  rw [Path.foldl_ofText, toList_substitute,
    Text.split_replaceFrom placeholder_ne_nil (by decide) hslash, hparts, ← filterMap_stepsOf]
  rfl

/-- A path from the root stays one. -/
theorem absolute_ofText_substitute {s : String} (h : (Path.ofText s).absolute = true) :
    (Path.ofText (substitute module s)).absolute = true := by
  obtain ⟨rest, hrest⟩ := List.head?_eq_some_iff.1 (beq_iff_eq.1 h)
  show ((substitute module s).toList.head? == some '/') = true
  rw [toList_substitute, hrest, replaceFrom_slash_cons]
  rfl

/-! ## Taking back what is filled in -/

/-- That every name that a later step up takes back stays a name. -/
def KeepsTaken (module : String) (steps : List Step) : Prop :=
  ∀ before after s, steps = before ++ .up :: after →
    (net before).names.getLast? = some (.name s) → ProperName (substitute module s)

theorem KeepsTaken.of_append {front back : List Step} (h : KeepsTaken module (front ++ back)) :
    KeepsTaken module front := by
  intro before after s hfront hlast
  refine h before (after ++ back) s ?_ hlast
  rw [hfront, List.append_assoc, List.cons_append]

/-- Steps that are filled in lead where their net leads that is filled in. -/
theorem foldl_filterMap_fill {steps : List Step} (h : KeepsTaken module steps)
    (base : List Step) :
    (steps.filterMap (fill module)).foldl advance base =
      ((net steps).names.filterMap (fill module)).foldl advance
        ((List.replicate (net steps).rise .up).foldl advance base) := by
  induction steps using List.reverseRecOn with
  | nil => rfl
  | append_singleton steps s ih =>
    rw [List.filterMap_append, List.foldl_append, ih h.of_append, Path.net_concat]
    generalize hnet : net steps = n
    obtain ⟨rise, names⟩ := n
    cases s with
    | here => rfl
    | name t => simp [Path.Net.advance]
    | up =>
      rcases List.eq_nil_or_concat names with rfl | ⟨front, x, rfl⟩
      · simp [Path.Net.advance, fill, List.replicate_succ']
      · -- The last name stays one, so the step up takes it back in both orders.
        obtain ⟨t, rfl⟩ : ∃ t, x = .name t :=
          Path.allNames_net steps x (by simp [hnet])
        have hproper := h steps [] t rfl (by simp [hnet])
        have hfill : [Step.name t].filterMap (fill module) = [.name (substitute module t)] :=
          List.filterMap_cons_some (fill_of_properName hproper)
        simp [Path.Net.advance, hfill, fill, Path.advance]

/-! ## Names that stay names -/

theorem filterMap_fill {steps : List Step} (hsteps : ∀ s ∈ steps, s.Proper)
    (h : ∀ s, .name s ∈ steps → ProperName (substitute module s)) :
    steps.filterMap (fill module) = steps.map (Step.mapName (substitute module)) := by
  rw [← List.filterMap_eq_map]
  refine List.filterMap_congr fun s hs => ?_
  cases s with
  | here => exact absurd (hsteps _ hs) id
  | up => rfl
  | name t => exact fill_of_properName (h t hs)

/-- Names without a place for the name of the module are left as they are. -/
theorem map_substitute_eq_self_iff {steps : List Step} :
    steps.map (Step.mapName (substitute module)) = steps ↔
      ∀ s, .name s ∈ steps → substitute module s = s := by
  have hid : steps.map (Step.mapName (substitute module)) = steps ↔
      ∀ x ∈ steps, x.mapName (substitute module) = x := by
    conv_lhs => rhs; rw [← List.map_id steps]
    exact List.map_inj_left
  rw [hid]
  constructor
  · intro h s hs
    exact Step.name.inj (h _ hs)
  · intro h x hx
    cases x with
    | here => rfl
    | up => rfl
    | name s => exact congrArg Step.name (h s hx)

theorem filterMap_fill_eq_self {steps : List Step} (hsteps : ∀ s ∈ steps, s.Proper)
    (h : ∀ s, .name s ∈ steps → substitute module s = s) :
    steps.filterMap (fill module) = steps := by
  have hproper : ∀ s, .name s ∈ steps → ProperName (substitute module s) := by
    intro s hs
    rw [h s hs]
    exact hsteps _ hs
  rw [filterMap_fill hsteps hproper]
  exact map_substitute_eq_self_iff.2 h

end ClientRoutes.Location

namespace ClientRoutes.Layout

open ClientRoutes.Location (substitute fill KeepsTaken)
open ClientRoutes.Path (Step ProperName AllNames Settled advance net)

/-! ## Where the file of a kind is -/

/-- The path of a kind of file. -/
def kindPath (l : Layout) (kind : Artifact) : Path := Path.ofText (pathOf l.overrides kind)

/-- Where the path of a kind of file leads. -/
def resolved (l : Layout) (kind : Artifact) : Path :=
  ((Path.ofText l.directory).join (l.kindPath kind)).normalize

/-- Where the path of a kind of file starts. -/
def start (l : Layout) (kind : Artifact) : List Step :=
  if (l.kindPath kind).absolute then [] else (Path.ofText l.directory).normalize.steps

/-- What the path of a kind of file leaves of the place where it starts. -/
def kept (l : Layout) (kind : Artifact) : List Step :=
  (List.replicate (l.kindPath kind).rise .up).foldl advance (l.start kind)

/-- The names of the path of a kind of file that are not taken back. -/
def added (l : Layout) (kind : Artifact) : List Step := (net (l.kindPath kind).steps).names

variable {l : Layout} {kind : Artifact} {module : String}

theorem foldl_start (l : Layout) (kind : Artifact) :
    (l.kindPath kind).steps.foldl advance (l.start kind) = l.kept kind ++ l.added kind :=
  Path.foldl_advance_net _ _

theorem resolved_eq (h : (Path.ofText l.directory).absolute = true) (kind : Artifact) :
    l.resolved kind = ⟨true, l.kept kind ++ l.added kind⟩ := by
  rw [← foldl_start, start, resolved]
  by_cases habs : (l.kindPath kind).absolute = true
  · rw [Path.normalize_join_of_absolute habs, if_pos habs, Path.normalize, habs]
  · rw [Path.normalize_join (by simpa using habs), if_neg habs, h]

theorem proper_resolved (l : Layout) (kind : Artifact) : (l.resolved kind).Proper :=
  Path.proper_normalize (Path.properName_of_join Path.properName_of_ofText
    Path.properName_of_ofText)

theorem proper_kept (h : (Path.ofText l.directory).absolute = true) (kind : Artifact) :
    ∀ s ∈ l.kept kind, s.Proper := by
  have hproper := l.proper_resolved kind
  rw [resolved_eq h] at hproper
  exact fun s hs => hproper s (List.mem_append_left _ hs)

theorem proper_added (h : (Path.ofText l.directory).absolute = true) (kind : Artifact) :
    ∀ s ∈ l.added kind, s.Proper := by
  have hproper := l.proper_resolved kind
  rw [resolved_eq h] at hproper
  exact fun s hs => hproper s (List.mem_append_right _ hs)

theorem settled_kept (h : (Path.ofText l.directory).absolute = true) (kind : Artifact) :
    Settled (l.kept kind) := by
  have hsettled : Settled (l.resolved kind).steps := Path.settled_normalize _
  rw [resolved_eq h] at hsettled
  exact hsettled.of_front (List.prefix_append _ _)

/-! ## Putting in the name of a module -/

/-- Where the absolute path of a file for a module leads. -/
def placed (l : Layout) (kind : Artifact) (module : String) : Path :=
  (Path.ofText ((l.location kind).forModule module).absolute).normalize

/-- The conditions under which the name of a module may be put in late: it takes
the path to the root only if that is where it starts, what is taken back stays a
name, and what is left of the directory has no place for it. -/
structure Fillable (l : Layout) (kind : Artifact) (module : String) : Prop where
  start : (Path.ofText (substitute module (pathOf l.overrides kind))).absolute = true →
    l.start kind = []
  taken : KeepsTaken module (l.kindPath kind).steps
  kept : ∀ s, .name s ∈ l.kept kind → substitute module s = s

/-- Put in late, the name of a module changes also what is left of the directory. -/
theorem placed_eq (h : (Path.ofText l.directory).absolute = true) (hslash : '/' ∉ module.toList) :
    l.placed kind module = ⟨true, ((l.added kind).filterMap (fill module)).foldl advance
      (((l.kept kind).filterMap (fill module)).foldl advance [])⟩ := by
  have hread := Path.ofText_text (l.proper_resolved kind)
  have hroot : (Path.ofText (substitute module (l.resolved kind).text)).absolute = true :=
    Location.absolute_ofText_substitute (by rw [hread, resolved_eq h])
  show (Path.ofText (substitute module (l.resolved kind).text)).normalize = _
  rw [Path.normalize, hroot, Location.foldl_ofText_substitute hslash, hread, resolved_eq h,
    List.filterMap_append, List.foldl_append]

/-- Put in early, it changes the path only. -/
theorem file_eq (h : (Path.ofText l.directory).absolute = true) (hslash : '/' ∉ module.toList)
    (hstart : (Path.ofText (substitute module (pathOf l.overrides kind))).absolute = true →
      l.start kind = [])
    (htaken : KeepsTaken module (l.kindPath kind).steps) :
    l.file kind module =
      ⟨true, ((l.added kind).filterMap (fill module)).foldl advance (l.kept kind)⟩ := by
  have hsteps : (Path.ofText (substitute module (pathOf l.overrides kind))).steps.foldl advance
      (l.start kind) = ((l.added kind).filterMap (fill module)).foldl advance (l.kept kind) := by
    rw [Location.foldl_ofText_substitute hslash]
    exact Location.foldl_filterMap_fill htaken _
  show ((Path.ofText l.directory).join
    (Path.ofText (substitute module (pathOf l.overrides kind)))).normalize = _
  rw [← hsteps]
  by_cases habs : (Path.ofText (substitute module (pathOf l.overrides kind))).absolute = true
  · rw [Path.normalize_join_of_absolute habs, Path.normalize, habs, hstart habs]
  · have hrelative : ¬ (l.kindPath kind).absolute = true :=
      fun hpath => habs (Location.absolute_ofText_substitute hpath)
    rw [Path.normalize_join (by simpa using habs), h, start, if_neg hrelative]

theorem Fillable.placed_eq (hl : l.Fillable kind module)
    (h : (Path.ofText l.directory).absolute = true) (hslash : '/' ∉ module.toList) :
    l.placed kind module = l.file kind module := by
  have hkept : (l.kept kind).filterMap (fill module) = l.kept kind :=
    Location.filterMap_fill_eq_self (proper_kept h kind) hl.kept
  rw [Layout.placed_eq h hslash, file_eq h hslash hl.start hl.taken, hkept,
    (settled_kept h kind).foldl_advance]

/-! ## Names of modules that are not empty -/

section NonEmpty
variable (hne : module ≠ "") (hslash : '/' ∉ module.toList) (hdot : '.' ∉ module.toList)
include hne hslash hdot

theorem properName_substitute_of_ofText {s t : String}
    (h : .name t ∈ (Path.ofText s).steps) :
    ProperName (substitute module t) :=
  Location.properName_substitute hne hslash hdot (Path.name_of_ofText h).1

theorem start_eq_nil (l : Layout) (kind : Artifact)
    (habs : (Path.ofText (substitute module (pathOf l.overrides kind))).absolute = true) :
    l.start kind = [] := by
  have hsame := Location.head?_substitute hslash (s := pathOf l.overrides kind)
    fun t ht => properName_substitute_of_ofText hne hslash hdot ht
  have hpath : (l.kindPath kind).absolute = true := hsame.symm.trans habs
  rw [start, if_pos hpath]

theorem keepsTaken_kindPath (l : Layout) (kind : Artifact) :
    KeepsTaken module (l.kindPath kind).steps := by
  intro before after s hsteps hlast
  refine properName_substitute_of_ofText hne hslash hdot (s := pathOf l.overrides kind) ?_
  show .name s ∈ (l.kindPath kind).steps
  rw [hsteps]
  exact List.mem_append_left _ (Path.mem_net (List.mem_of_getLast? hlast)).1

/-- Where the name of a module is not empty, only what is left of the directory
matters. -/
theorem placed_eq_file_iff (h : (Path.ofText l.directory).absolute = true) (kind : Artifact) :
    l.placed kind module = l.file kind module ↔
      ∀ s, .name s ∈ l.kept kind → substitute module s = s := by
  have hfill : ∀ {steps : List Step}, (∀ s ∈ steps, s.Proper) →
      steps.filterMap (fill module) = steps.map (Step.mapName (substitute module)) :=
    fun hsteps => Location.filterMap_fill hsteps fun s hs =>
      Location.properName_substitute hne hslash hdot (hsteps _ hs)
  have hnames : AllNames ((l.added kind).map (Step.mapName (substitute module))) := by
    intro x hx
    obtain ⟨y, hy, rfl⟩ := List.mem_map.1 hx
    obtain ⟨t, rfl⟩ := Path.allNames_net _ y hy
    exact ⟨_, rfl⟩
  have hkept : ((l.kept kind).map (Step.mapName (substitute module))).foldl advance [] =
      (l.kept kind).map (Step.mapName (substitute module)) := by
    have hmap := Path.foldl_advance_map (f := substitute module) [] (l.kept kind)
    rwa [(settled_kept h kind).foldl_advance] at hmap
  rw [placed_eq h hslash, file_eq h hslash (start_eq_nil hne hslash hdot l kind)
    (keepsTaken_kindPath hne hslash hdot l kind), hfill (proper_kept h kind),
    hfill (proper_added h kind), hkept, Path.foldl_advance_names _ _ hnames,
    Path.foldl_advance_names _ _ hnames, Path.mk.injEq, List.append_cancel_right_eq,
    Location.map_substitute_eq_self_iff]
  exact and_iff_right rfl

end NonEmpty

/-- The absolute path of a file, with the name of a module put in, is where its path
leads from the working directory with the name put in, under the conditions above.
If the name is not empty, it is enough that what is left of the directory has no place
for it, and without that it fails. -/
theorem placed_eq_file (h : (Path.ofText l.directory).absolute = true) (kind : Artifact)
    (operation : Value) (path : String) :
    (l.Fillable kind (Operation.module operation path) →
      l.placed kind (Operation.module operation path) =
        l.file kind (Operation.module operation path)) ∧
      (Operation.module operation path ≠ "" →
        (l.placed kind (Operation.module operation path) =
            l.file kind (Operation.module operation path) ↔
          ∀ s, .name s ∈ l.kept kind →
            substitute (Operation.module operation path) s = s)) := by
  have hslash := Location.not_mem_module (c := '/') (by decide) operation path
  have hdot := Location.not_mem_module (c := '.') (by decide) operation path
  exact ⟨fun hl => hl.placed_eq h hslash, fun hne => placed_eq_file_iff hne hslash hdot h kind⟩

theorem placed_eq_file_lib :
    let l := ofEntries "/work/app" [(.dto, "lib/../\x7bmoduleName\x7d/dto.ts")] [("@", "src")]
    (l.placed .dto (Operation.module .null "/users") =
        l.file .dto (Operation.module .null "/users") ∧
      (l.file .dto (Operation.module .null "/users")).text = "/work/app/users/dto.ts") ∧
      l.placed .dto (Operation.module .null "/-") = l.file .dto (Operation.module .null "/-") ∧
      (l.file .dto (Operation.module .null "/-")).text = "/work/app/dto.ts" := by
  intro l
  have habs : (Path.ofText l.directory).absolute = true := by decide +kernel
  have hkept : l.kept .dto = [.name "work", .name "app"] := by decide +kernel
  have hsteps : (l.kindPath .dto).steps =
      [.name "lib", .up, .name "\x7bmoduleName\x7d", .name "dto.ts"] := by decide +kernel
  have hempty : Operation.module .null "/-" = "" := by decide +kernel
  have husers : Operation.module .null "/users" = "users" := by decide +kernel
  have hfixed : ∀ m ∈ ["", "users"], ∀ s ∈ ["work", "app"], substitute m s = s := by
    decide +kernel
  have hleft : ∀ m ∈ ["", "users"], ∀ s, .name s ∈ l.kept .dto → substitute m s = s :=
    fun m hm s hs => hfixed m hm s (by simpa [hkept] using hs)
  have hfillable : l.Fillable .dto (Operation.module .null "/-") := by
    rw [hempty]
    refine ⟨?_, ?_, hleft "" (by simp)⟩
    · decide +kernel
    · -- The only name that is taken back is the first one.
      intro before after s hbefore hlast
      rw [hsteps] at hbefore
      obtain rfl : before = [.name "lib"] := by
        rcases before with _ | ⟨x, _ | ⟨y, _ | ⟨z, _ | ⟨w, rest⟩⟩⟩⟩ <;> simp_all
      cases hlast
      refine ⟨?_, ?_, ?_, ?_⟩ <;> decide +kernel
  refine ⟨⟨?_, by decide +kernel⟩, (placed_eq_file habs .dto .null "/-").1 hfillable,
    by decide +kernel⟩
  refine ((placed_eq_file habs .dto .null "/users").2 (by rw [husers]; decide)).2 ?_
  rw [husers]
  exact hleft "users" (by simp)

/-- An empty name of a module takes the path to the root, leaves nothing to take back,
or leaves a step up, and the directory may have the placeholder in it: the absolute path
then leads elsewhere. -/
theorem placed_ne_file :
    (∀ override ∈ ["\x7bmoduleName\x7d/dto.ts", "a/\x7bmoduleName\x7d/../dto.ts",
        "a/..\x7bmoduleName\x7d/../dto.ts"],
      (ofEntries "/w" [(.dto, override)] []).placed .dto (Operation.module .null "/-") ≠
        (ofEntries "/w" [(.dto, override)] []).file .dto (Operation.module .null "/-")) ∧
      (ofEntries "/w/\x7bmoduleName\x7d" [] []).placed .dto (Operation.module .null "/users") ≠
        (ofEntries "/w/\x7bmoduleName\x7d" [] []).file .dto (Operation.module .null "/users") := by
  refine ⟨?_, ?_⟩ <;> decide +kernel

end ClientRoutes.Layout
