import ClientRoutes.Proofs.Alias.Derive
import ClientRoutes.Proofs.Layout.Substitution

/-
  Imports that are derived before the module is known.

  The import of a file is derived from its path with the placeholder in it, and
  the name of the module is put into the import. The file itself is found with the
  name put into its path. Both agree if the alias and its directory are without
  placeholder: then the name is put into what follows them, on both sides.

  What is proved:
    1. `anchor_mapNames` — where a path leads whose names are filled in.
    2. `Fits.reachedFrom` — what follows the directory, filled in, leads to the
       file.
    3. `Fits.exists_longest` — the import, filled in, leads to the file without
       its extension.
    4. `Fits.bare_file` — what is left of the file is a name without extension.
-/

namespace ClientRoutes.AliasMap

open ClientRoutes.Location (substitute)
open ClientRoutes.Path (Step ProperName AllNames)

/-- The directory of the alias that the import of a path is made with, and what
follows it. -/
structure MadeWith (a : AliasMap) (path name root : String) (rest : Path) : Prop where
  deepest : a.Deepest (a.localize (Path.ofText path)) name root rest
  specifier : a.derive path = name ++ "/" ++ restText rest

/-- The conditions on a path and on the name of a module under which the import
leads to the file. -/
structure Fits (a : AliasMap) (path module : String) : Prop where
  plain : '\\' ∉ path.toList
  /-- No name becomes empty or dots. -/
  proper : ∀ s, .name s ∈ (Path.ofText path).steps → ProperName (substitute module s)
  shallow : (a.fromBase (Path.ofText path)).Shallow
  /-- The base is taken from an absolute path before the name is put in. -/
  base_kept : (Path.ofText path).absolute = true →
    (Path.ofText a.base).mapNames (substitute module) = Path.ofText a.base
  held : ∃ name root rest, a.Holds (a.localize (Path.ofText path)) name root rest
  strict : ∀ name root, a.roots.get? name = some root →
    (Path.ofText root).normalize ≠ a.localize (Path.ofText path)
  root_shallow : ∀ name root rest, a.MadeWith path name root rest → (Path.ofText root).rise ≤ 1
  name_kept : ∀ name root rest, a.MadeWith path name root rest → substitute module name = name
  root_kept : ∀ name root rest, a.MadeWith path name root rest →
    (Path.ofText root).normalize.mapNames (substitute module) = (Path.ofText root).normalize
  /-- The last name is more than dots and an extension, and has one extension at
  most. -/
  named : ∃ s, (a.localize (Path.ofText path)).steps.getLast? = some (.name s) ∧
    (∃ c ∈ (substitute module (withoutExtension s)).toList, c ≠ '.') ∧
    withoutExtension (substitute module (withoutExtension s)) =
      substitute module (withoutExtension s)
  /-- A longer alias is a name for the directory that it goes on to. -/
  coherent : ∀ name root rest m t, a.MadeWith path name root rest →
    a.Longest (substitute module (a.derive path)) m → m.name = name ++ "/" ++ t →
    a.anchor (Path.ofText m.root) =
      a.anchor ((Path.ofText root).join (Path.ofText (t ++ "/")))

/-! ## Filling in -/

section Fill

variable {a : AliasMap} {p rest : Path} {f : String → String}

/-- The base can be taken away before the names are filled in, if it keeps its
own. -/
theorem anchor_mapNames (ha : (Path.ofText a.base).absolute = true)
    (hbase : p.absolute = true → (Path.ofText a.base).mapNames f = Path.ofText a.base) :
    a.anchor ((a.fromBase p).mapNames f) = a.anchor (p.mapNames f) := by
  unfold fromBase
  by_cases habs : p.absolute = true
  · rw [if_pos habs]
    cases h : (Path.ofText a.base).stripPrefix? p with
    | none => rfl
    | some rest =>
      -- The base is also the front of the filled path.
      have hstrip := Path.stripPrefix?_mapNames (hbase habs) h
      have hrest := anchor_fromBase ha (p.mapNames f)
      rw [fromBase, if_pos (show (p.mapNames f).absolute = true from habs), hstrip] at hrest
      exact hrest
  · rw [if_neg habs]

theorem Falls.mapNames (h : Falls p) : Falls (p.mapNames f) := by
  have hmap : ∀ {steps : List Step}, AllNames steps → AllNames (steps.map (Step.mapName f)) := by
    intro steps hsteps step hstep
    obtain ⟨s, hs, rfl⟩ := List.mem_map.1 hstep
    obtain ⟨t, rfl⟩ := hsteps s hs
    exact ⟨f t, rfl⟩
  refine ⟨?_, fun habs => hmap (h.2 habs)⟩
  rw [Path.mapNames, ← List.map_tail]
  exact hmap h.1

theorem getLast?_mapNames {s : String} (h : p.steps.getLast? = some (.name s)) :
    (p.mapNames f).steps.getLast? = some (.name (f s)) := by
  rw [Path.mapNames, List.getLast?_map, h]
  rfl

end Fill

/-! ## The filled import -/

section Fits

variable {a : AliasMap} {path module name root : String} {rest : Path}

/-- What follows the directory ends with the name of the file. -/
theorem Fits.exists_last (h : a.Fits path module) (hmade : a.MadeWith path name root rest) :
    ∃ s, rest.steps.getLast? = some (.name s) ∧
      (∃ c ∈ (substitute module (withoutExtension s)).toList, c ≠ '.') ∧
      withoutExtension (substitute module (withoutExtension s)) =
        substitute module (withoutExtension s) := by
  obtain ⟨s, hlast, hkeeps⟩ := h.named
  refine ⟨s, ?_, hkeeps⟩
  have hholds := hmade.deepest.holds
  have hne := hholds.ne_nil (h.strict name root hholds.listed)
  rcases stripPrefix?_eq_some hholds.strip with ⟨-, hrest, hsteps⟩ | ⟨-, -, rfl⟩
  · have hsome : rest.steps ≠ [] := by
      intro hnil
      apply hne
      rw [← hrest, ← hnil]
    rw [hsteps, List.getLast?_append, Option.or_of_isSome (by simpa using hsome)] at hlast
    exact hlast
  · exact hlast

/-- The names of what follows the directory are names of the path. -/
theorem MadeWith.name_mem (h : a.MadeWith path name root rest) {s : String}
    (hs : .name s ∈ rest.steps) : .name s ∈ (Path.ofText path).steps := by
  obtain ⟨before, hsteps, -⟩ := h.deepest.holds.exists_append
  have hlocal : .name s ∈ (a.localize (Path.ofText path)).steps := by
    rw [hsteps]
    exact List.mem_append_right _ hs
  rw [localize_eq] at hlocal
  exact name_of_fromBase (Path.name_of_normalize hlocal)

theorem Fits.proper_rest (h : a.Fits path module) (hmade : a.MadeWith path name root rest) :
    (rest.mapNames (substitute module)).Proper := by
  obtain ⟨before, hsteps, -⟩ := hmade.deepest.holds.exists_append
  intro x hx
  obtain ⟨s, hs, rfl⟩ := List.mem_map.1 hx
  cases s with
  | here =>
    -- A normalized path does not stay in place.
    have hhere : .here ∈ (a.localize (Path.ofText path)).steps := by
      rw [hsteps]
      exact List.mem_append_right _ hs
    rw [localize_eq] at hhere
    exact absurd hhere (Path.settled_normalize _).here_not_mem
  | up => trivial
  | name s => exact h.proper s (hmade.name_mem hs)

theorem Fits.keepsName_rest (h : a.Fits path module) (hmade : a.MadeWith path name root rest) :
    KeepsName (rest.mapNames (substitute module)) := by
  obtain ⟨s, hlast, hkeeps, hone⟩ := h.exists_last hmade
  intro t ht
  rw [getLast?_mapNames hlast] at ht
  obtain rfl := Step.name.inj (Option.some.inj ht)
  rw [Location.withoutExtension_substitute hone]
  exact hkeeps

/-- What follows the directory, filled in, leads to the file. -/
theorem Fits.reachedFrom (h : a.Fits path module) (ha : (Path.ofText a.base).absolute = true)
    (hmodule : '/' ∉ module.toList) (hmade : a.MadeWith path name root rest) :
    ∃ place, a.ReachedFrom (Path.ofText (substitute module path)) (Path.ofText root)
      (rest.mapNames (substitute module)) place := by
  have hstrip := Path.stripPrefix?_mapNames (h.root_kept name root rest hmade)
    hmade.deepest.holds.strip
  rw [localize_eq, ← Path.normalize_mapNames] at hstrip
  obtain ⟨place, hplace⟩ := exists_place ha (Path.shallow_mapNames h.shallow)
    (h.root_shallow name root rest hmade) hstrip
  refine ⟨place, hplace.of_anchor_eq ?_⟩
  rw [Location.ofText_substitute hmodule h.proper]
  exact anchor_mapNames ha h.base_kept

/-- The import, filled in, as the alias reads it that it was made with. -/
theorem Fits.uses (h : a.Fits path module) (hmade : a.MadeWith path name root rest) :
    a.Uses (substitute module (a.derive path))
      ⟨name, root, (bare (rest.mapNames (substitute module))).text⟩ := by
  have hholds := hmade.deepest.holds
  have hplain : Plain rest := fun s hs => plain_ofText h.plain s (hmade.name_mem hs)
  obtain ⟨s, hlast, -, hone⟩ := h.exists_last hmade
  refine .of_eq hholds.listed ?_
  rw [hmade.specifier, Location.substitute_append_slash, h.name_kept name root rest hmade,
    restText_eq hplain, Location.substitute_text, Location.bare_mapNames hlast hone]

theorem Fits.exists_madeWith (h : a.Fits path module) (hsorted : a.roots.Sorted) :
    ∃ name root rest, a.MadeWith path name root rest := by
  have hproper : (a.localize (Path.ofText path)).Proper := by
    rw [localize_eq]
    exact Path.proper_normalize fun s hs => (Path.name_of_ofText (name_of_fromBase hs)).1
  have hplain : Plain (a.localize (Path.ofText path)) := by
    rw [localize_eq]
    exact fun s hs => plain_ofText h.plain s (name_of_fromBase (Path.name_of_normalize hs))
  have hkeeps : KeepsName (a.localize (Path.ofText path)) := by
    obtain ⟨s, hlast, hdots, -⟩ := h.named
    intro t ht
    obtain rfl := Step.name.inj (Option.some.inj (hlast.symm.trans ht))
    -- The condition is on the filled name, but a text of dots has nothing to fill in.
    exact Location.exists_ne_dot_of_substitute hdots
  obtain ⟨own, rest, hdeepest, hrest, huses⟩ := exists_derive_eq hsorted h.held
    fun name root rest hholds =>
      (ofText_restText (hholds.proper hproper) (hholds.plain hplain) (hholds.keepsName hkeeps)
        (hholds.ne_nil (h.strict name root hholds.listed))).2
  refine ⟨own.name, own.root, rest, hdeepest, ?_⟩
  rw [← hrest]
  exact huses.specifier

/-- The import, filled in, leads to the file without its extension. -/
theorem Fits.exists_longest (h : a.Fits path module) (hsorted : a.roots.Sorted)
    (ha : (Path.ofText a.base).absolute = true) (hmodule : '/' ∉ module.toList) :
    ∃ m, a.Longest (substitute module (a.derive path)) m ∧
      a.target m = bare (a.anchor (Path.ofText (substitute module path))) := by
  obtain ⟨name, root, rest, hmade⟩ := h.exists_madeWith hsorted
  obtain ⟨place, hplace⟩ := h.reachedFrom ha hmodule hmade
  obtain ⟨s, hlast, -, -⟩ := h.exists_last hmade
  have hproper : (bare (rest.mapNames (substitute module))).Proper :=
    proper_bare (h.proper_rest hmade) (h.keepsName_rest hmade)
  have hfile : bare (a.anchor (Path.ofText (substitute module path))) =
      ⟨true, (bare (rest.mapNames (substitute module))).steps.foldl Path.advance place⟩ := by
    rw [hplace.file]
    exact bare_foldl (getLast?_mapNames hlast) true place
  have huses := h.uses hmade
  obtain ⟨m, hm⟩ := huses.exists_longest hsorted
  have hlongest := longest_of_match? hsorted hm
  refine ⟨m, hlongest, ?_⟩
  rw [hfile]
  rcases huses.eq_or_extends hlongest.uses (hlongest.longest _ huses) with
    rfl | ⟨t, hname, ht⟩
  · -- The alias reads the import that was made with it.
    unfold target
    rw [Path.ofText_text hproper]
    exact hplace.behind _ rfl
  · -- A longer alias reads a part of what follows, and is a name for where that part leads.
    obtain ⟨before, after, hcut⟩ := hproper.ofText_cut ht
    have hfalls : Falls (rest.mapNames (substitute module)) := by
      apply Falls.mapNames
      apply hmade.deepest.holds.falls
      rw [localize_eq]
      exact falls_normalize h.shallow
    have hafter : AllNames after := hfalls.bare.allNames_after hcut
    unfold target
    rw [hplace.eq_of_cut ha hcut hafter, hcut.back, anchor_join_names ha _ hafter,
      h.coherent name root rest m t hmade hlongest hname]

/-- The file has a name, which keeps something and loses one extension at most. -/
theorem Fits.exists_file (h : a.Fits path module) (hsorted : a.roots.Sorted)
    (ha : (Path.ofText a.base).absolute = true) (hmodule : '/' ∉ module.toList) :
    ∃ front name, a.anchor (Path.ofText (substitute module path)) = ⟨true, front ++ [.name name]⟩ ∧
      (∃ c ∈ (withoutExtension name).toList, c ≠ '.') ∧
      withoutExtension (withoutExtension name) = withoutExtension name := by
  obtain ⟨own, root, rest, hmade⟩ := h.exists_madeWith hsorted
  obtain ⟨place, hplace⟩ := h.reachedFrom ha hmodule hmade
  obtain ⟨s, hlast, hkeeps, hone⟩ := h.exists_last hmade
  obtain ⟨before, hbefore⟩ := List.getLast?_eq_some_iff.1
    (getLast?_mapNames (f := substitute module) hlast)
  refine ⟨before.foldl Path.advance place, substitute module s, ?_, ?_, ?_⟩
  · rw [hplace.file, hbefore, List.foldl_append]
    rfl
  · rw [Location.withoutExtension_substitute hone]
    exact hkeeps
  · rw [Location.withoutExtension_substitute hone]
    exact hone

/-- Without its extension the file has no extension and still a name. -/
theorem Fits.bare_file (h : a.Fits path module) (hsorted : a.roots.Sorted)
    (ha : (Path.ofText a.base).absolute = true) (hmodule : '/' ∉ module.toList) :
    bare (bare (a.anchor (Path.ofText (substitute module path)))) =
        bare (a.anchor (Path.ofText (substitute module path))) ∧
      KeepsName (bare (a.anchor (Path.ofText (substitute module path)))) := by
  obtain ⟨front, name, hfile, hkeeps, hone⟩ := h.exists_file hsorted ha hmodule
  have hbare : bare (a.anchor (Path.ofText (substitute module path))) =
      ⟨true, front ++ [.name (withoutExtension name)]⟩ := by
    rw [hfile]
    exact bare_concat true front (.name name)
  refine ⟨?_, ?_⟩
  · rw [hbare, bare_concat, bareStep, hone]
  · rw [hbare]
    intro s hs
    rw [List.getLast?_concat] at hs
    obtain rfl := Step.name.inj (Option.some.inj hs)
    rw [hone]
    exact hkeeps

end Fits

end ClientRoutes.AliasMap
