import ClientRoutes.Description.Operation
import ClientRoutes.Layout
import ClientRoutes.Proofs.Alias.Extension
import ClientRoutes.Proofs.Casing.Names
import ClientRoutes.Proofs.Path.Renaming
import ClientRoutes.Proofs.Text.Replacing

/-
  The name of a module in the texts of a layout.

  The placeholder has neither slashes nor dots, so it never reaches over the end
  of a name or into an extension. Where the name of a module has none of them
  either, to put it into the text of a path is to put it into every name.

  What is proved:
    1. `substitute_append_slash`, `substitute_append_extension` — texts that are
       put together.
    2. `properName_substitute` — names of steps.
    3. `substitute_text`, `ofText_substitute` — paths, written and read.
    4. `bare_mapNames` — extensions of files.
    5. `not_mem_module` — which characters no module name has.
-/

namespace ClientRoutes.Location

open ClientRoutes.Path (Step ProperName)
open ClientRoutes.AliasMap (bare bareStep withoutExtension extensions)

variable {module : String}

theorem placeholder_ne_nil : placeholder.toList ≠ [] := by decide

theorem not_mem_placeholder {s : List Char}
    (h : s.all (fun c => !placeholder.toList.contains c) = true) :
    ∀ c ∈ s, c ∉ placeholder.toList := by
  simpa using h

theorem toList_substitute (module s : String) :
    (substitute module s).toList =
      Text.replaceFrom placeholder.toList module.toList 0 s.toList := by
  simp [substitute, Text.replaceAll]

theorem replaceFrom_slash_cons (s : List Char) :
    Text.replaceFrom placeholder.toList module.toList 0 ('/' :: s) =
      '/' :: Text.replaceFrom placeholder.toList module.toList 0 s :=
  Text.replaceFrom_append_cons (s := []) placeholder_ne_nil (by decide) (Nat.le_refl 0) s

theorem not_mem_substitute {c : Char} {s : String} (hmodule : c ∉ module.toList)
    (hs : c ∉ s.toList) : c ∉ (substitute module s).toList := by
  rw [toList_substitute]
  intro hc
  rcases Text.mem_of_mem_replaceFrom hc with hc | hc
  · exact hs hc
  · exact hmodule hc

/-! ## Texts -/

theorem substitute_append_slash (s t : String) :
    substitute module (s ++ "/" ++ t) = substitute module s ++ "/" ++ substitute module t := by
  apply String.toList_injective
  have hchars : ∀ u v : String, (u ++ "/" ++ v).toList = u.toList ++ '/' :: v.toList := by
    intro u v
    rw [String.toList_append, String.toList_append, List.append_assoc]
    rfl
  rw [toList_substitute, hchars, hchars, toList_substitute, toList_substitute,
    Text.replaceFrom_append_cons placeholder_ne_nil (by decide) (Nat.zero_le _)]

theorem substitute_append_of_forall {t : String} (ht : ∀ c ∈ t.toList, c ∉ placeholder.toList)
    (s : String) : substitute module (s ++ t) = substitute module s ++ t := by
  apply String.toList_injective
  rw [toList_substitute, String.toList_append, String.toList_append, toList_substitute,
    Text.replaceFrom_append_right placeholder_ne_nil _ ht]

theorem substitute_append_extension {ext : String} (h : ext ∈ extensions) (s : String) :
    substitute module (s ++ ext) = substitute module s ++ ext := by
  apply substitute_append_of_forall
  apply not_mem_placeholder
  rcases List.mem_cons.1 h with rfl | h
  · decide
  · obtain rfl := List.mem_singleton.1 h
    decide

/-- A text of dots has no place for a name. -/
theorem exists_ne_dot_of_substitute {s : String}
    (h : ∃ c ∈ (substitute module s).toList, c ≠ '.') : ∃ c ∈ s.toList, c ≠ '.' := by
  by_contra hnone
  have hdots : ∀ c ∈ s.toList, c = '.' := by
    intro c hc
    by_contra hne
    exact hnone ⟨c, hc, hne⟩
  have hsame : (substitute module s).toList = s.toList := by
    rw [toList_substitute]
    apply Text.replaceFrom_of_forall placeholder_ne_nil
    intro c hc
    rw [hdots c hc]
    decide
  rw [hsame] at h
  exact hnone h

/-- A name stays one if the name of the module can stand in it. -/
theorem properName_substitute (hne : module ≠ "") (hslash : '/' ∉ module.toList)
    (hdot : '.' ∉ module.toList) {s : String} (hs : ProperName s) :
    ProperName (substitute module s) := by
  have hor : Text.replaceFrom placeholder.toList module.toList 0 s.toList = s.toList ∨
      module.toList ⊆ Text.replaceFrom placeholder.toList module.toList 0 s.toList :=
    Text.replaceFrom_eq_or 0 s.toList
  rw [← toList_substitute] at hor
  rcases hor with hsame | hmem
  · rwa [String.toList_injective hsame]
  · obtain ⟨c, hc⟩ := List.exists_mem_of_ne_nil module.toList
      fun hnil => hne (String.toList_injective hnil)
    have hchar : c ≠ '.' := fun he => hdot (he ▸ hc)
    have hin := hmem hc
    refine ⟨?_, ?_, ?_, not_mem_substitute hslash hs.2.2.2⟩ <;> intro he <;> rw [he] at hin <;>
      simp [hchar] at hin

/-! ## Paths -/

theorem part_mapName (s : Step) :
    (s.mapName (substitute module)).part =
      Text.replaceFrom placeholder.toList module.toList 0 s.part := by
  have hhere := not_mem_placeholder (s := Step.here.part) (by decide)
  have hup := not_mem_placeholder (s := Step.up.part) (by decide)
  cases s with
  | here => exact (Text.replaceFrom_of_forall placeholder_ne_nil hhere).symm
  | up => exact (Text.replaceFrom_of_forall placeholder_ne_nil hup).symm
  | name t => exact toList_substitute module t

/-- In the text of a path every name is filled in. -/
theorem substitute_text (p : Path) :
    substitute module p.text = (p.mapNames (substitute module)).text := by
  apply String.toList_injective
  have hparts : (p.mapNames (substitute module)).steps.map Step.part =
      (p.steps.map Step.part).map (Text.replaceFrom placeholder.toList module.toList 0) := by
    rw [Path.mapNames, List.map_map, List.map_map]
    exact List.map_congr_left fun s _ => part_mapName s
  rw [toList_substitute, Path.toList_text, Path.toList_text, hparts,
    ← Text.replaceFrom_intercalate placeholder_ne_nil (by decide),
    show (p.mapNames (substitute module)).absolute = p.absolute from rfl]
  cases p.absolute with
  | true => exact replaceFrom_slash_cons _
  | false => rfl

/-- The step of a part is filled in, if its name then is one. -/
theorem ofPart?_replaceFrom {front : Bool} {part : List Char}
    (hproper : ∀ s, Step.ofPart? front part = some (.name s) → ProperName (substitute module s)) :
    Step.ofPart? front (Text.replaceFrom placeholder.toList module.toList 0 part) =
      (Step.ofPart? front part).map (Step.mapName (substitute module)) := by
  have hdots := not_mem_placeholder (s := ['.', '.']) (by decide)
  by_cases hnil : part = []
  · subst hnil
    rfl
  by_cases hdot : part = ['.']
  · subst hdot
    rw [Text.replaceFrom_of_forall placeholder_ne_nil
      fun c hc => hdots c (List.mem_cons_of_mem _ hc)]
    cases front <;> rfl
  by_cases hup : part = ['.', '.']
  · subst hup
    rw [Text.replaceFrom_of_forall placeholder_ne_nil hdots]
    rfl
  · -- What is left is a name, and stays one.
    have hread := Path.ofPart?_of_ne hnil hdot hup front
    have hname : (Step.name (substitute module (String.ofList part))).Proper := hproper _ hread
    have hchars : (Step.name (substitute module (String.ofList part))).part =
        Text.replaceFrom placeholder.toList module.toList 0 part := by
      show (substitute module (String.ofList part)).toList = _
      rw [toList_substitute, String.toList_ofList]
    rw [hread, ← hchars, Path.ofPart?_of_ne_dot hname.part_ne_dot, hname.ofPart?_part]
    rfl

theorem stepsOf_replaceFrom {parts : List (List Char)}
    (hproper : ∀ s, .name s ∈ Path.stepsOf parts → ProperName (substitute module s)) :
    Path.stepsOf (parts.map (Text.replaceFrom placeholder.toList module.toList 0)) =
      (Path.stepsOf parts).map (Step.mapName (substitute module)) := by
  cases parts with
  | nil => rfl
  | cons first rest =>
    have hfirst : Step.ofPart? true (Text.replaceFrom placeholder.toList module.toList 0 first) =
        (Step.ofPart? true first).map (Step.mapName (substitute module)) :=
      ofPart?_replaceFrom fun s hs =>
        hproper s (List.mem_append_left _ (Option.mem_toList.2 hs))
    have hrest : ∀ part ∈ rest,
        Step.ofPart? false (Text.replaceFrom placeholder.toList module.toList 0 part) =
          (Step.ofPart? false part).map (Step.mapName (substitute module)) := fun part hpart =>
      ofPart?_replaceFrom fun s hs =>
        hproper s (List.mem_append_right _ (List.mem_filterMap.2 ⟨part, hpart, hs⟩))
    rw [List.map_cons, Path.stepsOf, hfirst, List.filterMap_map, Path.stepsOf, List.map_append,
      List.map_filterMap]
    congr 1
    · cases Step.ofPart? true first <;> rfl
    · exact List.filterMap_congr hrest

theorem ofPart?_front_ne_none {c : Char} {cs : List Char} :
    Step.ofPart? true (c :: cs) ≠ none := by
  unfold Step.ofPart?
  split <;> simp_all

/-- A path that is filled in begins at the root if it did before. -/
theorem head?_substitute (hmodule : '/' ∉ module.toList) {s : String}
    (hproper : ∀ t, .name t ∈ (Path.ofText s).steps → ProperName (substitute module t)) :
    ((substitute module s).toList.head? == some '/') = (s.toList.head? == some '/') := by
  rw [toList_substitute]
  cases hs : s.toList with
  | nil => rfl
  | cons c cs =>
    by_cases hc : c = '/'
    · rw [hc, replaceFrom_slash_cons]
      rfl
    · -- The first part is a step, so it does not become empty.
      obtain ⟨part, parts, hparts⟩ := List.exists_cons_of_ne_nil (Text.split_ne_nil '/' cs)
      have hsplit : Text.split '/' (c :: cs) = (c :: part) :: parts := by
        rw [Text.split, if_neg hc, hparts]
      have hfront : ((c :: cs).head? == some '/') = false := by simpa using hc
      rw [hfront, beq_eq_false_iff_ne]
      intro hhead
      obtain ⟨rest, hrest⟩ := List.head?_eq_some_iff.1 hhead
      have hcut : Text.split '/' (Text.replaceFrom placeholder.toList module.toList 0 (c :: cs)) =
          (Text.split '/' (c :: cs)).map (Text.replaceFrom placeholder.toList module.toList 0) :=
        Text.split_replaceFrom placeholder_ne_nil (by decide) hmodule _
      rw [hrest, hsplit, Text.split, if_pos rfl, List.map_cons] at hcut
      have hsteps : (Path.ofText s).steps = Path.stepsOf ((c :: part) :: parts) := by
        rw [← hsplit, ← hs]
        rfl
      have hstep : Step.ofPart? true
          (Text.replaceFrom placeholder.toList module.toList 0 (c :: part)) =
          (Step.ofPart? true (c :: part)).map (Step.mapName (substitute module)) := by
        apply ofPart?_replaceFrom
        intro t ht
        apply hproper
        rw [hsteps]
        exact List.mem_append_left _ (Option.mem_toList.2 ht)
      rw [← (List.cons.inj hcut).1] at hstep
      exact absurd (Option.map_eq_none_iff.1 hstep.symm) ofPart?_front_ne_none

/-- A text that is filled in writes the path with its names filled in. -/
theorem ofText_substitute (hmodule : '/' ∉ module.toList) {s : String}
    (hproper : ∀ t, .name t ∈ (Path.ofText s).steps → ProperName (substitute module t)) :
    Path.ofText (substitute module s) = (Path.ofText s).mapNames (substitute module) := by
  have hsteps : (Path.ofText (substitute module s)).steps =
      (Path.ofText s).steps.map (Step.mapName (substitute module)) := by
    unfold Path.ofText
    rw [toList_substitute, Text.split_replaceFrom placeholder_ne_nil (by decide) hmodule]
    exact stepsOf_replaceFrom hproper
  have habs : (Path.ofText (substitute module s)).absolute = (Path.ofText s).absolute :=
    head?_substitute hmodule hproper
  rw [Path.mapNames, ← habs, ← hsteps]

/-! ## Extensions -/

/-- A name that has an extension keeps it, and one that has none gets none. -/
theorem withoutExtension_substitute {s : String}
    (h : withoutExtension (substitute module (withoutExtension s)) =
      substitute module (withoutExtension s)) :
    withoutExtension (substitute module s) = substitute module (withoutExtension s) := by
  rcases AliasMap.withoutExtension_eq_or s with ⟨ext, hext, hs⟩ | ⟨hs, -⟩
  · generalize withoutExtension s = w at hs ⊢
    rw [hs, substitute_append_extension hext, AliasMap.withoutExtension_append _ hext]
  · rw [hs] at h ⊢
    exact h

theorem bare_mapNames {p : Path} {s : String} (hlast : p.steps.getLast? = some (.name s))
    (h : withoutExtension (substitute module (withoutExtension s)) =
      substitute module (withoutExtension s)) :
    bare (p.mapNames (substitute module)) = (bare p).mapNames (substitute module) := by
  obtain ⟨absolute, steps⟩ := p
  obtain ⟨front, rfl⟩ := List.getLast?_eq_some_iff.1 hlast
  have hmap : Path.mapNames (substitute module) ⟨absolute, front ++ [.name s]⟩ =
      ⟨absolute, front.map (Step.mapName (substitute module)) ++ [.name (substitute module s)]⟩ := by
    simp [Path.mapNames, Step.mapName]
  rw [hmap, AliasMap.bare_concat, AliasMap.bare_concat, bareStep, withoutExtension_substitute h]
  simp [Path.mapNames, Step.mapName, bareStep]

/-! ## Names of modules -/

/-- No module name has a slash or a backslash. -/
theorem not_mem_module {c : Char} (hc : Casing.isMark c = true) (operation : Value)
    (path : String) : c ∉ (Operation.module operation path).toList := by
  have hname : Casing.IsName (Operation.module operation path).toList := by
    unfold Operation.module
    split
    · rw [Casing.toList_camelCase]
      exact Casing.isName_camelChars _
    · cases Template.resource? path with
      | none => decide
      | some resource =>
        show Casing.IsName (Casing.camelCase resource).toList
        rw [Casing.toList_camelCase]
        exact Casing.isName_camelChars _
  intro hmem
  have hchar := hname c hmem
  rw [Casing.isNameChar, hc, Bool.not_true, Bool.and_false] at hchar
  cases hchar

end ClientRoutes.Location
