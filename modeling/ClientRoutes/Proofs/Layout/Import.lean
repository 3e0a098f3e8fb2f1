import ClientRoutes.Proofs.Alias.Beginning
import ClientRoutes.Proofs.Layout.Specifier

/-
  How generated files import each other.

  An import is derived from the path of the imported file, filled in with the name
  of the module, and made relative to the importing file if that is near enough.
  If the directory of an alias holds the imported file, the import leads to it,
  relatively or by an alias. If none does, the import is the path itself.

  What is proved:
    1. `importPath_reaches` — where the import of a file leads.
    2. `importPath_misses` — imports that do not lead to the file.
-/

namespace ClientRoutes.AliasMap

open ClientRoutes.Path (Step)

/-! ## Where a near import leads -/

section Near

variable {a : AliasMap} {m : Match}

/-- A relative import of a file without extension begins as one and leads there. -/
theorem relativeSpecifier_detour (ha : (Path.ofText a.base).absolute = true) (file : String)
    (hplain : Plain (a.target m)) (hkeeps : KeepsName (a.target m))
    (hbare : bare (a.target m) = a.target m)
    (hvisible : ∀ name rest, (a.target m).steps = (a.directory file).steps ++ .name name :: rest →
      name.toList.head? ≠ some '.') :
    IsRelative (relativeSpecifier ⟨false, a.detour file m⟩) ∧
      ((a.directory file).join
        (Path.ofText (relativeSpecifier ⟨false, a.detour file m⟩))).normalize = a.target m := by
  have hproper : Path.Proper ⟨false, a.detour file m⟩ := proper_detour
  have hplain : Plain ⟨false, a.detour file m⟩ := plain_detour hplain
  have hdetour : bare ⟨false, a.detour file m⟩ = ⟨false, a.detour file m⟩ := bare_detour hbare
  refine ⟨?_, ?_⟩
  · exact isRelative_relativeSpecifier hproper hplain hdetour
      fun name rest h => hvisible name rest (steps_target_of_detour h)
  · obtain ⟨-, hread⟩ := relativeSpecifier_spec hproper hplain (keepsName_ups_append _ hkeeps)
    rw [hdetour] at hread
    exact join_detour ha hread

end Near

end ClientRoutes.AliasMap

namespace ClientRoutes.Layout

open ClientRoutes.Location (substitute)
open ClientRoutes.AliasMap (IsRelative bare withoutExtension withSlashes)

/-! ## Where an import leads -/

/-- A layout whose aliases are seen from the working directory. -/
structure Anchored (l : Layout) : Prop where
  base : l.aliases.base = l.directory
  sorted : l.aliases.roots.Sorted
  absolute : (Path.ofText l.directory).absolute = true

/-- The file of a kind for a module. -/
def file (l : Layout) (kind : Artifact) (module : String) : Path :=
  ((Path.ofText l.directory).join
    (Path.ofText ((l.location kind).forModule module).relative)).normalize

/-- That an import in the file of one kind leads to the file of another kind,
without its extension: it is relative, or its longest alias leads there. -/
inductive Reaches (l : Layout) (source target : Artifact) (module s : String) : Prop
  | relative (h : IsRelative s)
      (leads : ((l.file source module).parent.join (Path.ofText s)).normalize =
        bare (l.file target module))
  | aliased (m : AliasMap.Match) (h : l.aliases.Longest s m)
      (leads : l.aliases.target m = bare (l.file target module))

/-- The conditions under which the import leads to the file: those on the import
before it is made relative, and that what follows the importing directory is not
hidden. -/
structure Importable (l : Layout) (source target : Artifact) (module : String) : Prop where
  plain : '\\' ∉ l.directory.toList
  fits : l.aliases.Fits (pathOf l.overrides target) module
  visible : ∀ name rest,
    (bare (l.file target module)).steps =
      (l.file source module).parent.steps ++ .name name :: rest →
    name.toList.head? ≠ some '.'

variable {l : Layout} {source target : Artifact} {module : String}

theorem Anchored.file_eq (hl : l.Anchored) (kind : Artifact) (module : String) :
    l.file kind module =
      l.aliases.anchor (Path.ofText (substitute module (pathOf l.overrides kind))) := by
  unfold file AliasMap.anchor
  rw [hl.base]
  rfl

theorem Anchored.parent_eq (hl : l.Anchored) (kind : Artifact) (module : String) :
    (l.file kind module).parent =
      l.aliases.directory (substitute module (pathOf l.overrides kind)) := by
  rw [hl.file_eq]
  rfl

theorem Importable.plain_file (h : l.Importable source target module)
    (hmodule : '\\' ∉ module.toList) : AliasMap.Plain (bare (l.file target module)) :=
  AliasMap.plain_bare (AliasMap.plain_normalize (AliasMap.plain_join
    (AliasMap.plain_ofText h.plain)
    (AliasMap.plain_ofText (Location.not_mem_substitute hmodule h.fits.plain))))

theorem reaches_of_importable (hl : l.Anchored) (hslash : '/' ∉ module.toList)
    (hbackslash : '\\' ∉ module.toList) (h : l.Importable source target module) :
    l.Reaches source target module (l.importPath source target module) := by
  have hbase : (Path.ofText l.aliases.base).absolute = true := by
    rw [hl.base]
    exact hl.absolute
  obtain ⟨m, hm, htarget⟩ := h.fits.exists_longest hl.sorted hbase hslash
  rw [← hl.file_eq] at htarget
  rcases AliasMap.resolve_eq_or hl.sorted hbase hm
    (substitute module (pathOf l.overrides source)) l.maxDepth with hkept | hnear
  · have himport : l.importPath source target module =
        substitute module (l.aliases.derive (pathOf l.overrides target)) := hkept
    refine .aliased m ?_ htarget
    rwa [himport]
  · -- The extension is taken away a second time, which must not change the file.
    have himport : l.importPath source target module = AliasMap.relativeSpecifier
        ⟨false, l.aliases.detour (substitute module (pathOf l.overrides source)) m⟩ := hnear
    obtain ⟨htwice, hkeeps⟩ := h.fits.bare_file hl.sorted hbase hslash
    rw [← hl.file_eq, ← htarget] at htwice hkeeps
    have hplain := h.plain_file hbackslash
    rw [← htarget] at hplain
    have hvisible : ∀ name rest, (l.aliases.target m).steps =
        (l.aliases.directory (substitute module (pathOf l.overrides source))).steps ++
          .name name :: rest → name.toList.head? ≠ some '.' := by
      intro name rest hsteps
      rw [htarget, ← hl.parent_eq] at hsteps
      exact h.visible name rest hsteps
    obtain ⟨hrelative, hleads⟩ :=
      AliasMap.relativeSpecifier_detour hbase _ hplain hkeeps htwice hvisible
    refine .relative ?_ ?_
    · rw [himport]
      exact hrelative
    · rw [himport, hl.parent_eq, hleads, htarget]

/-- The path of a kind of file as an import of its own. -/
def ownSpecifier (l : Layout) (kind : Artifact) (module : String) : String :=
  substitute module (withoutExtension (withSlashes (pathOf l.overrides kind)))

theorem importPath_of_not_held (hl : l.Anchored)
    (hheld : ∀ name root rest, ¬ l.aliases.Holds
      (l.aliases.localize (Path.ofText (pathOf l.overrides target))) name root rest)
    (halias : ∀ m, ¬ l.aliases.Longest (l.ownSpecifier target module) m) :
    l.importPath source target module = l.ownSpecifier target module := by
  show l.aliases.resolve (substitute module (pathOf l.overrides source))
    (substitute module (l.aliases.derive (pathOf l.overrides target))) l.maxDepth = _
  rw [AliasMap.derive_of_not_holds hl.sorted hheld]
  exact AliasMap.resolve_of_not_longest hl.sorted halias _ l.maxDepth

/-- If the directory of an alias holds the imported file, its import leads there,
relatively or by an alias. If none holds it, the import is its path without
extension, unless that begins with an alias by chance. -/
theorem importPath_reaches (hl : l.Anchored) (source target : Artifact) (operation : Value)
    (path : String) :
    (l.Importable source target (Operation.module operation path) →
      l.Reaches source target (Operation.module operation path)
        (l.importPath source target (Operation.module operation path))) ∧
      ((∀ name root rest, ¬ l.aliases.Holds
          (l.aliases.localize (Path.ofText (pathOf l.overrides target))) name root rest) →
        (∀ m, ¬ l.aliases.Longest
          (l.ownSpecifier target (Operation.module operation path)) m) →
        l.importPath source target (Operation.module operation path) =
          l.ownSpecifier target (Operation.module operation path)) := by
  have hslash := Location.not_mem_module (c := '/') (by decide) operation path
  have hbackslash := Location.not_mem_module (c := '\\') (by decide) operation path
  exact ⟨reaches_of_importable hl hslash hbackslash, importPath_of_not_held hl⟩

/-! ## Imports of some layouts -/

/-- A layout of some aliases. -/
def ofEntries (directory : String) (overrides : PathOverrides) (entries : List (String × String)) :
    Layout :=
  ⟨directory, overrides, (AliasMap.new directory).insertAll entries, defaultDepth⟩

theorem anchored_ofEntries {directory : String} (h : (Path.ofText directory).absolute = true)
    (overrides : PathOverrides) (entries : List (String × String)) :
    (ofEntries directory overrides entries).Anchored where
  base := by
    have hbase : ∀ a : AliasMap, (a.insertAll entries).base = a.base := by
      induction entries with
      | nil => exact fun a => rfl
      | cons e rest ih => exact fun a => ih (a.insert e.1 e.2)
    exact hbase _
  sorted := AliasMap.sorted_insertAll TextMap.sorted_empty entries
  absolute := h

theorem get?_src {name root : String}
    (h : ((AliasMap.new "/work/app").insertAll [("@", "src")]).roots.get? name = some root) :
    name = "@" ∧ root = "src" := by
  have hsorted := AliasMap.sorted_insertAll (a := .new "/work/app") TextMap.sorted_empty
    [("@", "src")]
  have hmem := (TextMap.mem_entries_iff hsorted name root).2 h
  rw [show ((AliasMap.new "/work/app").insertAll [("@", "src")]).roots.entries = [("@", "src")] by
    decide +kernel] at hmem
  exact Prod.mk.inj (List.mem_singleton.1 hmem)

theorem fits_src : ((AliasMap.new "/work/app").insertAll [("@", "src")]).Fits
    "src/shared/api/dto.ts" "users" where
  plain := by decide
  proper := by
    have hsteps : (Path.ofText "src/shared/api/dto.ts").steps =
        [.name "src", .name "shared", .name "api", .name "dto.ts"] := by decide +kernel
    have hnames : ∀ s ∈ ["src", "shared", "api", "dto.ts"],
        Path.ProperName (substitute "users" s) := by
      unfold Path.ProperName
      decide +kernel
    intro s hs
    rw [hsteps] at hs
    exact hnames s (by simpa using hs)
  shallow := by
    unfold Path.Shallow
    decide +kernel
  base_kept := fun _ => by decide +kernel
  held := ⟨"@", "src", ⟨false, [.name "shared", .name "api", .name "dto.ts"]⟩,
    ⟨by decide +kernel, by decide +kernel⟩⟩
  strict := by
    intro name root h
    obtain ⟨-, rfl⟩ := get?_src h
    decide +kernel
  root_shallow := by
    intro name root rest h
    obtain ⟨-, rfl⟩ := get?_src h.deepest.holds.listed
    decide +kernel
  name_kept := by
    intro name root rest h
    obtain ⟨rfl, -⟩ := get?_src h.deepest.holds.listed
    decide +kernel
  root_kept := by
    intro name root rest h
    obtain ⟨-, rfl⟩ := get?_src h.deepest.holds.listed
    decide +kernel
  named := ⟨"dto.ts", by decide +kernel, ⟨'d', by decide +kernel, by decide⟩, by decide +kernel⟩
  coherent := by
    -- There is no longer alias.
    intro name root rest m t h hm hname
    rw [(get?_src hm.uses.root).1, (get?_src h.deepest.holds.listed).1] at hname
    have hlength := congrArg String.length hname
    rw [String.length_append, String.length_append] at hlength
    have hone : "/".length = 1 := by decide
    omega

/-- With the alias `@` for `src` the import of a file in `src` leads there, and that
of a file beside it is its path. -/
theorem importPath_reaches_users :
    (ofEntries "/work/app" [] [("@", "src")]).Reaches .api .dto (Operation.module .null "/users")
        ((ofEntries "/work/app" [] [("@", "src")]).importPath .api .dto
          (Operation.module .null "/users")) ∧
      (ofEntries "/work/app" [(.dto, "generated/dto.ts")] [("@", "src")]).importPath .api .dto
        (Operation.module .null "/users") = "generated/dto" := by
  have hmodule : Operation.module .null "/users" = "users" := by decide +kernel
  have habs : (Path.ofText "/work/app").absolute = true := by decide
  refine ⟨?_, ?_⟩
  · obtain ⟨hreaches, -⟩ := importPath_reaches (anchored_ofEntries habs [] [("@", "src")])
      .api .dto .null "/users"
    apply hreaches
    rw [hmodule]
    refine ⟨by decide, fits_src, ?_⟩
    -- The importing directory has as many steps as the path of the imported file.
    intro name rest hsteps
    have hlength := congrArg List.length hsteps
    rw [List.length_append, List.length_cons] at hlength
    have hfile : (bare ((ofEntries "/work/app" [] [("@", "src")]).file .dto "users")).steps.length =
        ((ofEntries "/work/app" [] [("@", "src")]).file .api "users").parent.steps.length := by
      decide +kernel
    omega
  · obtain ⟨-, hown⟩ := importPath_reaches
      (anchored_ofEntries habs [(.dto, "generated/dto.ts")] [("@", "src")]) .api .dto .null "/users"
    rw [hown]
    · rw [hmodule]
      decide +kernel
    · intro name root rest h
      obtain ⟨-, rfl⟩ := get?_src h.listed
      have hstrip : (Path.ofText "src").normalize.stripPrefix?
          (((AliasMap.new "/work/app").insertAll [("@", "src")]).localize
            (Path.ofText "generated/dto.ts")) = none := by
        decide +kernel
      exact absurd (hstrip.symm.trans h.strip) (by simp)
    · rw [hmodule]
      exact (AliasMap.match?_eq_none_iff
        (anchored_ofEntries habs [(.dto, "generated/dto.ts")] [("@", "src")]).sorted).1
        (by decide +kernel)

/-! ## Imports that do not lead to the file -/

theorem isRelative_iff (s : String) :
    IsRelative s ↔
      s = ".." ∨ (Text.stripPrefix? "./" s).isSome ∨ (Text.stripPrefix? "../" s).isSome := by
  simp only [IsRelative, Option.isSome_iff_exists, Text.stripPrefix?_eq_some_iff, ← exists_or]

instance (s : String) : Decidable (IsRelative s) := decidable_of_iff' _ (isRelative_iff s)

/-- Whether a text in the file of one kind leads to the file of another kind. -/
def leads (l : Layout) (source target : Artifact) (module s : String) : Bool :=
  (decide (IsRelative s) && ((l.file source module).parent.join (Path.ofText s)).normalize ==
      bare (l.file target module)) ||
    (l.aliases.match? s).any fun m => l.aliases.target m == bare (l.file target module)

theorem leads_iff (hl : l.Anchored) (source target : Artifact) (module s : String) :
    l.leads source target module s = true ↔ l.Reaches source target module s := by
  rw [leads, Bool.or_eq_true, Bool.and_eq_true, decide_eq_true_iff, beq_iff_eq,
    Option.any_eq_true]
  constructor
  · rintro (⟨hs, hleads⟩ | ⟨m, hm, hleads⟩)
    · exact .relative hs hleads
    · exact .aliased m ((AliasMap.match?_eq_some_iff hl.sorted).1 hm) (beq_iff_eq.1 hleads)
  · rintro (⟨hs, hleads⟩ | ⟨m, hm, hleads⟩)
    · exact .inl ⟨hs, hleads⟩
    · exact .inr ⟨m, (AliasMap.match?_eq_some_iff hl.sorted).2 hm, beq_iff_eq.2 hleads⟩

/-- That an import in the `api` file is some text, and that this does not lead to
the `dto` file. -/
structure Misses (l : Layout) (path s : String) : Prop where
  anchored : l.Anchored
  specifier : l.importPath .api .dto (Operation.module .null path) = s
  lost : ¬ l.Reaches .api .dto (Operation.module .null path) s

theorem Misses.of_leads {directory : String} {overrides : PathOverrides}
    {entries : List (String × String)} {path module s : String}
    (hmodule : Operation.module .null path = module)
    (habs : (Path.ofText directory).absolute = true)
    (hs : (ofEntries directory overrides entries).importPath .api .dto module = s)
    (h : (ofEntries directory overrides entries).leads .api .dto module s = false) :
    Misses (ofEntries directory overrides entries) path s where
  anchored := anchored_ofEntries habs overrides entries
  specifier := by
    rw [hmodule]
    exact hs
  lost := by
    rw [hmodule, ← leads_iff (anchored_ofEntries habs overrides entries), h]
    exact Bool.false_ne_true

/-- Imports that do not lead to the file. No directory of an alias holds it; a
longer alias reads the import, for another directory; the file is the directory
itself, or goes up two times, or its name is nothing but an extension, or has two
of them, or is hidden, or has a backslash, or it has none; a module without name
leaves an empty name; the placeholder stands in an alias, or in its directory, or
in the base; the base has a backslash; the directory goes up two times. -/
theorem importPath_misses :
    Misses (ofEntries "/w" [(.api, "src/api.ts"), (.dto, "out/dto.ts")] [("@", "src")]) "/users"
        "out/dto" ∧
      Misses (ofEntries "/w" [(.api, "src/api.ts"), (.dto, "src/a/dto.ts")]
        [("@", "src"), ("@/a", "lib")]) "/users" "../lib/dto" ∧
      Misses (ofEntries "/w" [(.api, "src/api.ts"), (.dto, "src")] [("@", "src")]) "/users" "@" ∧
      Misses (ofEntries "/w/app" [(.api, "src/api.ts"), (.dto, "../../src/a.ts")]
        [("@", "src"), ("~", "../..")]) "/users" "./a" ∧
      Misses (ofEntries "/w" [(.api, "src/api.ts"), (.dto, "src/.ts")] [("@", "src")]) "/users"
        "@" ∧
      Misses (ofEntries "/w" [(.api, "src/api.ts"), (.dto, "src/dto.ts.ts")] [("@", "src")])
        "/users" "./dto" ∧
      Misses (ofEntries "/w" [(.api, "src/api.ts"), (.dto, "src/.a/dto.ts")] [("@", "src")])
        "/users" ".a/dto" ∧
      Misses (ofEntries "/w" [(.api, "src/api.ts"), (.dto, "src/a\\b.ts")] [("@", "src")]) "/users"
        "./a/b" ∧
      Misses (ofEntries "/w.ts/app" [(.api, "src/api.ts"), (.dto, "..")] [("@", ".")]) "/users"
        "../.." ∧
      Misses (ofEntries "/w" [(.api, "src/api.ts"), (.dto, "src/\x7bmoduleName\x7d/dto.ts")]
        [("@", "src")]) "/-" "../../dto" ∧
      Misses (ofEntries "/w" [(.api, "src/api.ts"), (.dto, "src/dto.ts")]
        [("@\x7bmoduleName\x7d", "src")]) "/users" "@users/dto" ∧
      Misses (ofEntries "/w" [(.api, "src/api.ts"), (.dto, "src/\x7bmoduleName\x7d/dto.ts")]
        [("@", "src/\x7bmoduleName\x7d")]) "/users" "./\x7bmoduleName\x7d/dto" ∧
      Misses (ofEntries "/w/\x7bmoduleName\x7d"
        [(.api, "src/api.ts"), (.dto, "/w/\x7bmoduleName\x7d/src/dto.ts")] [("@", "src")]) "/users"
        "./dto" ∧
      Misses (ofEntries "/w\\x" [(.api, "../api.ts"), (.dto, "src/dto.ts")] [("@", "src")]) "/users"
        "./w/x/src/dto" ∧
      Misses (ofEntries "/w/app" [(.api, "src/api.ts"), (.dto, "src/a.ts")] [("~", "../..")])
        "/users" "~/src/a" := by
  have hmodule : Operation.module .null "/users" = "users" := by decide +kernel
  have hempty : Operation.module .null "/-" = "" := by decide +kernel
  refine ⟨.of_leads hmodule ?_ ?_ ?_, .of_leads hmodule ?_ ?_ ?_, .of_leads hmodule ?_ ?_ ?_,
    .of_leads hmodule ?_ ?_ ?_, .of_leads hmodule ?_ ?_ ?_, .of_leads hmodule ?_ ?_ ?_,
    .of_leads hmodule ?_ ?_ ?_, .of_leads hmodule ?_ ?_ ?_, .of_leads hmodule ?_ ?_ ?_,
    .of_leads hempty ?_ ?_ ?_, .of_leads hmodule ?_ ?_ ?_, .of_leads hmodule ?_ ?_ ?_,
    .of_leads hmodule ?_ ?_ ?_, .of_leads hmodule ?_ ?_ ?_, .of_leads hmodule ?_ ?_ ?_⟩ <;>
    decide +kernel

end ClientRoutes.Layout
