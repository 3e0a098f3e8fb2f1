import ClientRoutes.Proofs.Alias.Resolve
import ClientRoutes.Proofs.Path.Climbing
import ClientRoutes.Proofs.Path.Joining

/-
  From a relative import back to its alias.

  An import with an alias that was made relative is put behind the directory of
  the importing file. The path then goes up from there to what both files have in
  common and down to the imported one, so that normalized it is the directory of
  the alias followed by the names of the import, and the alias is found again.

  What is proved:
    1. `Single.longest` — how an import of names behind an alias is read.
    2. `detour_eq` — below the base, the way from one file to another does not
       depend on the base.
    3. `normalize_join_resolve` — the joined path is that of the imported file.
    4. `derive_join_resolve` — its import is the one that was made relative.
-/

namespace ClientRoutes.AliasMap

open ClientRoutes.Path (Step ProperName AllNames)

/-- A map with one alias, for a directory below the base. -/
structure Single (a : AliasMap) (name root : String) : Prop where
  absolute : (Path.ofText a.base).absolute = true
  entries : a.roots.entries = [(name, root)]
  root_relative : (Path.ofText root).absolute = false
  root_names : AllNames (Path.ofText root).steps
  root_plain : '\\' ∉ root.toList

/-- A file that is given relative to the base and lies below it, and a text for its
directory. -/
structure BelowBase (file directory : String) : Prop where
  relative : (Path.ofText file).absolute = false
  up_not_mem : .up ∉ (Path.ofText file).steps
  named : ∃ s, (Path.ofText file).steps.getLast? = some (.name s)
  directory : Path.ofText directory = (Path.ofText file).parent

/-- What an import can have behind its alias: names with slashes between them, the
last one without the extension of a source file. -/
structure Names (segments : List String) : Prop where
  ne_nil : segments ≠ []
  proper : ∀ s ∈ segments, ProperName s
  plain : ∀ s ∈ segments, '\\' ∉ s.toList
  last : ∀ s ∈ segments.getLast?, withoutExtension s = s

/-- An alias with names behind it. -/
def aliased (name : String) (segments : List String) : String :=
  name ++ "/" ++ "/".intercalate segments

variable {a : AliasMap} {name root file directory : String} {segments : List String}

/-! ## The names behind an alias -/

/-- The steps of some names. -/
def nameSteps (segments : List String) : List Step := segments.map .name

theorem allNames_nameSteps (segments : List String) : AllNames (nameSteps segments) := by
  intro s hs
  obtain ⟨t, -, rfl⟩ := List.mem_map.1 hs
  exact ⟨t, rfl⟩

theorem text_nameSteps (segments : List String) :
    Path.text ⟨false, nameSteps segments⟩ = "/".intercalate segments := by
  have htexts : (nameSteps segments).map Step.text = segments := by
    rw [nameSteps, List.map_map]
    exact List.map_id _
  rw [Path.text, htexts]
  exact String.empty_append

theorem Names.proper_nameSteps (h : Names segments) : Path.Proper ⟨false, nameSteps segments⟩ := by
  intro s hs
  obtain ⟨t, ht, rfl⟩ := List.mem_map.1 hs
  exact h.proper t ht

theorem Names.plain_nameSteps (h : Names segments) : Plain ⟨false, nameSteps segments⟩ := by
  intro s hs
  obtain ⟨t, ht, he⟩ := List.mem_map.1 hs
  obtain rfl := Step.name.inj he
  exact h.plain t ht

/-- The names stay as they are at the end of a path. -/
theorem Names.bare_append (h : Names segments) (absolute : Bool) (front : List Step) :
    bare ⟨absolute, front ++ nameSteps segments⟩ = ⟨absolute, front ++ nameSteps segments⟩ := by
  apply bare_eq_self
  intro s hs
  have hne : nameSteps segments ≠ [] := by simpa [nameSteps] using h.ne_nil
  rw [List.getLast?_append, Option.or_of_isSome (by simpa using hne), nameSteps,
    List.getLast?_map] at hs
  obtain ⟨t, ht, he⟩ := Option.map_eq_some_iff.1 hs
  obtain rfl := Step.name.inj he
  exact h.last t ht

theorem Names.ofText_intercalate (h : Names segments) :
    Path.ofText ("/".intercalate segments) = ⟨false, nameSteps segments⟩ := by
  rw [← text_nameSteps, Path.ofText_text h.proper_nameSteps]

theorem Names.intercalate_ne (h : Names segments) : "/".intercalate segments ≠ "" := by
  intro hempty
  have hread := h.ofText_intercalate
  rw [hempty] at hread
  have hnil : nameSteps segments = [] := ((Path.mk.inj hread).2).symm
  exact h.ne_nil (by simpa [nameSteps] using hnil)

/-! ## What an import with the alias stands for -/

theorem Single.sorted (ha : a.Single name root) : a.roots.Sorted := by
  simp [TextMap.Sorted, TextMap.keys, ha.entries]

/-- An import of names behind the alias is read with the alias. -/
theorem Single.longest (ha : a.Single name root) (segments : List String) :
    a.Longest (aliased name segments) ⟨name, root, "/".intercalate segments⟩ := by
  refine ⟨⟨?_, rfl⟩, ?_⟩
  · rw [← TextMap.mem_entries_iff ha.sorted, ha.entries]
    exact List.mem_singleton_self _
  · intro m hm
    have hmem := (TextMap.mem_entries_iff ha.sorted m.name m.root).2 hm.root
    rw [ha.entries] at hmem
    exact Nat.le_of_eq (congrArg String.length (Prod.mk.inj (List.mem_singleton.1 hmem)).1)

/-- The steps from the base to the imported file. -/
def below (root : String) (segments : List String) : List Step :=
  (Path.ofText root).steps ++ nameSteps segments

theorem Single.allNames_below (ha : a.Single name root) (segments : List String) :
    AllNames (below root segments) :=
  ha.root_names.append (allNames_nameSteps segments)

theorem Single.plain_below (ha : a.Single name root) (h : Names segments) :
    Plain ⟨false, below root segments⟩ := by
  intro s hs
  rcases List.mem_append.1 hs with hs | hs
  · exact plain_ofText ha.root_plain s hs
  · exact h.plain_nameSteps s hs

theorem Single.target_eq (ha : a.Single name root) (h : Names segments) :
    a.target ⟨name, root, "/".intercalate segments⟩ =
      ⟨true, (Path.ofText a.base).normalize.steps ++ below root segments⟩ := by
  have hroot : a.anchor (Path.ofText root) =
      ⟨true, (Path.ofText a.base).normalize.steps ++ (Path.ofText root).steps⟩ := by
    rw [anchor, Path.normalize_join ha.root_relative, ha.absolute,
      Path.foldl_advance_names _ _ ha.root_names]
  rw [target, h.ofText_intercalate, anchor_join_names ha.absolute _ (allNames_nameSteps segments),
    hroot, below, List.append_assoc]

/-! ## The way to the imported file -/

/-- The names of the directory of a file below the base. -/
def directoryNames (file : String) : List Step := (Path.net (Path.ofText file).parent.steps).names

theorem BelowBase.up_not_mem_parent (hf : BelowBase file directory) :
    .up ∉ (Path.ofText file).parent.steps :=
  fun hmem => hf.up_not_mem ((List.dropLast_sublist _).subset hmem)

theorem BelowBase.directory_eq (hf : BelowBase file directory)
    (ha : (Path.ofText a.base).absolute = true) :
    a.directory file = ⟨true, (Path.ofText a.base).normalize.steps ++ directoryNames file⟩ := by
  obtain ⟨s, hs⟩ := hf.named
  obtain ⟨front, hfront⟩ := List.getLast?_eq_some_iff.1 hs
  have hparent : (Path.ofText file).parent.steps = front := by
    rw [Path.parent, hfront, List.dropLast_concat]
  have hlead := Path.foldl_advance_of_up_not_mem hf.up_not_mem_parent
    (Path.ofText a.base).normalize.steps
  rw [hparent] at hlead
  rw [AliasMap.directory, anchor, Path.normalize_join hf.relative, Path.parent, hfront,
    List.foldl_append, hlead, ha, directoryNames, hparent]
  simp [Path.advance]

/-- Below the base, the way from the directory of a file to the imported one does
not depend on the base. -/
theorem detour_eq (ha : a.Single name root) (hf : BelowBase file directory) (h : Names segments) :
    a.detour file ⟨name, root, "/".intercalate segments⟩ =
      List.replicate ((directoryNames file).length -
          Path.common (below root segments) (directoryNames file)) .up ++
        (below root segments).drop (Path.common (below root segments) (directoryNames file)) := by
  unfold detour climbs
  rw [ha.target_eq h, hf.directory_eq ha.absolute, Path.common_append, List.length_append,
    Nat.add_sub_add_left, List.drop_append]
  simp

/-- The way goes up from what both files do not have in common, so it leads from
the directory of the one to the other. -/
theorem foldl_detour (ha : a.Single name root) (hf : BelowBase file directory)
    (h : Names segments) :
    (a.detour file ⟨name, root, "/".intercalate segments⟩).foldl Path.advance
      (directoryNames file) = below root segments := by
  have hnames : AllNames (directoryNames file) := Path.allNames_net _
  have hdown : AllNames ((below root segments).drop
      (Path.common (below root segments) (directoryNames file))) :=
    (ha.allNames_below segments).of_subset (List.drop_subset _ _)
  have hlead := @Path.foldl_between (below root segments) _ _ hnames hdown
  rw [Path.foldl_advance_names _ [] hnames, List.nil_append, List.take_append_drop] at hlead
  rw [detour_eq ha hf h, hlead]

theorem plain_detour_below (ha : a.Single name root) (hf : BelowBase file directory)
    (h : Names segments) :
    Plain ⟨false, a.detour file ⟨name, root, "/".intercalate segments⟩⟩ := by
  rw [detour_eq ha hf h]
  intro s hs
  rcases List.mem_append.1 hs with hs | hs
  · exact absurd (List.eq_of_mem_replicate hs) (by simp)
  · exact ha.plain_below h s (List.drop_subset _ _ hs)

/-! ## The joined path -/

/-- The relative import is read back as the way, perhaps behind a `.`. -/
theorem ofText_resolve (ha : a.Single name root) (hf : BelowBase file directory)
    (h : Names segments) {maxDepth : Nat}
    (hne : a.resolve file (aliased name segments) maxDepth ≠ aliased name segments) :
    Path.ofText (a.resolve file (aliased name segments) maxDepth) =
        ⟨false, a.detour file ⟨name, root, "/".intercalate segments⟩⟩ ∨
      Path.ofText (a.resolve file (aliased name segments) maxDepth) =
        ⟨false, .here :: a.detour file ⟨name, root, "/".intercalate segments⟩⟩ := by
  have hresolve := (resolve_eq_or ha.sorted ha.absolute (ha.longest segments) file
    maxDepth).resolve_left hne
  have htarget : bare (a.target ⟨name, root, "/".intercalate segments⟩) =
      a.target ⟨name, root, "/".intercalate segments⟩ := by
    rw [ha.target_eq h, below, ← List.append_assoc, h.bare_append]
  have hbare : bare ⟨false, a.detour file ⟨name, root, "/".intercalate segments⟩⟩ =
      ⟨false, a.detour file ⟨name, root, "/".intercalate segments⟩⟩ := bare_detour htarget
  have hproper : (bare ⟨false, a.detour file ⟨name, root, "/".intercalate segments⟩⟩).Proper := by
    rw [hbare]
    exact proper_detour
  obtain ⟨-, hread⟩ := ofText_relativeSpecifier hproper (plain_detour_below ha hf h)
  rw [hbare] at hread
  rwa [hresolve]

/-- Behind the directory of the importing file it is the path of the imported one. -/
theorem normalize_join_resolve (ha : a.Single name root) (hf : BelowBase file directory)
    (h : Names segments) {maxDepth : Nat}
    (hne : a.resolve file (aliased name segments) maxDepth ≠ aliased name segments) :
    (Path.ofText (PathText.join directory
      (a.resolve file (aliased name segments) maxDepth))).normalize =
        ⟨false, below root segments⟩ := by
  have hread := ofText_resolve ha hf h hne
  have hrelative : (Path.ofText (a.resolve file (aliased name segments) maxDepth)).absolute =
      false := by
    rcases hread with hread | hread
    · rw [hread]
    · rw [hread]
  have hdirectory : (Path.ofText directory).normalize.steps = directoryNames file := by
    rw [hf.directory, Path.normalize, Path.foldl_advance_of_up_not_mem hf.up_not_mem_parent]
    rfl
  have habsolute : (Path.ofText directory).absolute = false := by
    rw [hf.directory]
    exact hf.relative
  rw [Path.normalize_ofText_join, Path.normalize_join hrelative, hdirectory, habsolute,
    ← foldl_detour ha hf h]
  -- Staying in place leads nowhere.
  rcases hread with hread | hread
  · rw [hread]
  · rw [hread]
    rfl

/-! ## The alias of the joined path -/

/-- What lies below the directory of the alias is imported by it. -/
theorem derive_below (ha : a.Single name root) (h : Names segments) {path : String}
    (hpath : (Path.ofText path).normalize = ⟨false, below root segments⟩) :
    a.derive path = aliased name segments := by
  have hrelative : (Path.ofText path).absolute = false := congrArg Path.absolute hpath
  have hroot : (Path.ofText root).normalize = ⟨false, (Path.ofText root).steps⟩ := by
    rw [Path.normalize, ha.root_relative, Path.foldl_advance_names _ [] ha.root_names,
      List.nil_append]
  have hstrip : (Path.ofText root).normalize.stripPrefix? ⟨false, below root segments⟩ =
      some ⟨false, nameSteps segments⟩ := by
    have hprefix : (Path.ofText root).steps.isPrefixOf? (below root segments) =
        some (nameSteps segments) :=
      List.isPrefixOf?_eq_some_iff_append_eq.2 rfl
    rw [hroot, Path.stripPrefix?, if_pos rfl, hprefix]
    rfl
  have hcontainers : a.containers (a.localize (Path.ofText path)) =
      [⟨name, (Path.ofText root).normalize.depth, ⟨false, nameSteps segments⟩⟩] := by
    rw [localize, hrelative, if_neg Bool.false_ne_true, hpath, containers, ha.entries]
    simp [hstrip]
  have hshown : withoutExtension (withSlashes (Path.text ⟨false, nameSteps segments⟩)) =
      "/".intercalate segments := by
    have hbare := h.bare_append false []
    rw [List.nil_append] at hbare
    rw [withSlashes_text h.plain_nameSteps, withoutExtension_text, hbare, text_nameSteps]
  have hne : ("/".intercalate segments).isEmpty = false := by
    simpa using h.intercalate_ne
  unfold derive
  rw [hcontainers]
  show specifier _ = _
  unfold specifier
  dsimp only
  rw [hshown, hne]
  rfl

/-- If an import with the only alias of a map is made relative, then the import of
the file that it leads to, seen from the importing file, is the import that it was
made from. -/
theorem derive_join_resolve (ha : a.Single name root) (hf : BelowBase file directory)
    (h : Names segments) {maxDepth : Nat}
    (hne : a.resolve file (aliased name segments) maxDepth ≠ aliased name segments) :
    a.derive (PathText.join directory (a.resolve file (aliased name segments) maxDepth)) =
      aliased name segments :=
  derive_below ha h (normalize_join_resolve ha hf h hne)

/-- From `src/feature` the file `src/shared/dto` is imported by `../shared/dto`,
which gives the alias back. -/
theorem derive_join_resolve_standard :
    (standard "/project").resolve "src/feature/index.ts" (aliased "@" ["shared", "dto"]) 2 =
        "../shared/dto" ∧
      (standard "/project").derive (PathText.join "src/feature" "../shared/dto") =
        aliased "@" ["shared", "dto"] := by
  have ha : (standard "/project").Single "@" "src" := by
    refine ⟨by decide, by decide +kernel, by decide, ?_, by decide⟩
    rw [show (Path.ofText "src").steps = nameSteps ["src"] by decide +kernel]
    exact allNames_nameSteps _
  have hf : BelowBase "src/feature/index.ts" "src/feature" :=
    ⟨by decide, by decide +kernel, ⟨"index.ts", by decide +kernel⟩, by decide +kernel⟩
  have h : Names ["shared", "dto"] :=
    ⟨by decide, by unfold ProperName; decide, by decide, by decide +kernel⟩
  have hresolve : (standard "/project").resolve "src/feature/index.ts"
      (aliased "@" ["shared", "dto"]) 2 = "../shared/dto" := by
    decide +kernel
  have hne : (standard "/project").resolve "src/feature/index.ts"
      (aliased "@" ["shared", "dto"]) 2 ≠ aliased "@" ["shared", "dto"] := by
    rw [hresolve]
    decide +kernel
  have hrecovered := derive_join_resolve ha hf h hne
  rw [hresolve] at hrecovered
  exact ⟨hresolve, hrecovered⟩

end ClientRoutes.AliasMap
