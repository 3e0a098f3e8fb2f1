import ClientRoutes.Proofs.Alias.Extension
import ClientRoutes.Proofs.Alias.Match
import ClientRoutes.Proofs.Path.Relative

/-
  Imports that are made relative.

  An import that uses an alias is made relative to the importing file if that
  takes no more steps up than allowed. The relative import then leads to the same
  file. The steps up are the directories above the importing file that do not hold
  the imported one.

  What is proved:
    1. `ofText_relativeSpecifier`, `relativeSpecifier_spec` — the import of a
       relative path is read back as that path without extension, perhaps behind a
       `.`, and begins with a dot.
    2. `shorten?_eq` — when an import is made relative, and which one it is.
    3. `relative_spec` — where it leads, and how often it goes up.
    4. `resolve_eq_or`, `join_detour` — which relative import it is and where that
       leads, also above the root.
    5. `resolve_exact` — what becomes of every import.
-/

namespace ClientRoutes.AliasMap

open ClientRoutes.Path (Step AllNames)

/-! ## The import of a relative path -/

/-- The import of a relative path is read back as that path without extension,
perhaps after staying where it is, and it begins with a dot. -/
theorem ofText_relativeSpecifier {steps : List Step} (hbare : (bare ⟨false, steps⟩).Proper)
    (hplain : Plain ⟨false, steps⟩) :
    (relativeSpecifier ⟨false, steps⟩).toList.head? = some '.' ∧
      (Path.ofText (relativeSpecifier ⟨false, steps⟩) = ⟨false, (bare ⟨false, steps⟩).steps⟩ ∨
        Path.ofText (relativeSpecifier ⟨false, steps⟩) =
          ⟨false, .here :: (bare ⟨false, steps⟩).steps⟩) := by
  have htext : withoutExtension (withSlashes (Path.text ⟨false, steps⟩)) =
      (bare ⟨false, steps⟩).text := by
    rw [withSlashes_text hplain, withoutExtension_text]
  unfold relativeSpecifier
  rw [htext]
  by_cases hdot : (bare ⟨false, steps⟩).text.toList.head? = some '.'
  · simp only [hdot, beq_self_eq_true, if_true]
    exact ⟨trivial, .inl (Path.ofText_text hbare)⟩
  · have hb : ((bare ⟨false, steps⟩).text.toList.head? == some '.') = false := by
      simpa using hdot
    simp only [hb, Bool.false_eq_true, if_false]
    refine ⟨?_, .inr (Path.ofText_here_text hbare)⟩
    rw [String.toList_append]
    rfl

/-- So it is if the last name is more than dots and an extension. -/
theorem relativeSpecifier_spec {steps : List Step} (hproper : Path.Proper ⟨false, steps⟩)
    (hplain : Plain ⟨false, steps⟩) (hkeeps : KeepsName ⟨false, steps⟩) :
    (relativeSpecifier ⟨false, steps⟩).toList.head? = some '.' ∧
      (Path.ofText (relativeSpecifier ⟨false, steps⟩) = ⟨false, (bare ⟨false, steps⟩).steps⟩ ∨
        Path.ofText (relativeSpecifier ⟨false, steps⟩) =
          ⟨false, .here :: (bare ⟨false, steps⟩).steps⟩) :=
  ofText_relativeSpecifier (proper_bare hproper hkeeps) hplain

/-! ## Where a relative import leads -/

/-- Only what goes down can lose an extension. -/
theorem steps_bare_ups_append (n : Nat) (down : List Step) :
    (bare ⟨false, List.replicate n .up ++ down⟩).steps =
      List.replicate n .up ++ (bare ⟨false, down⟩).steps := by
  rcases List.eq_nil_or_concat down with rfl | ⟨front, s, rfl⟩
  · cases n with
    | zero => rfl
    | succ n =>
      rw [List.append_nil, List.replicate_succ', bare_concat]
      simp [bareStep]
  · rw [List.concat_eq_append, ← List.append_assoc, bare_concat, bare_concat, List.append_assoc]

/-- What both places have in common, followed by the rest without extension,
stands for the second place. -/
theorem standsFor_take_append (absolute : Bool) (steps : List Step) (n : Nat) :
    StandsFor ⟨absolute, steps.take n ++ (bare ⟨false, steps.drop n⟩).steps⟩ ⟨absolute, steps⟩ := by
  rcases List.eq_nil_or_concat (steps.drop n) with hnil | ⟨front, s, hdrop⟩
  · have htake : steps.take n = steps := by
      have h := List.take_append_drop n steps
      rwa [hnil, List.append_nil] at h
    rw [hnil, htake, bare_nil, List.append_nil]
    exact .same _
  · have hsteps : steps = (steps.take n ++ front) ++ [s] := by
      rw [List.append_assoc, ← List.concat_eq_append, ← hdrop, List.take_append_drop]
    have h := bare_standsFor ⟨absolute, steps⟩
    rw [hdrop, List.concat_eq_append, bare_concat, ← List.append_assoc]
    rw [hsteps, bare_concat, ← hsteps] at h
    exact h

theorem keepsName_ups_append (n : Nat) {absolute : Bool} {steps : List Step} {c : Nat}
    (h : KeepsName ⟨absolute, steps⟩) :
    KeepsName ⟨false, List.replicate n .up ++ steps.drop c⟩ := by
  intro s hs
  apply h s
  rw [List.getLast?_append] at hs
  cases hdrop : (steps.drop c).getLast? with
  | some x =>
    rw [hdrop, Option.some_or] at hs
    have hsteps : steps = steps.take c ++ steps.drop c := (List.take_append_drop c steps).symm
    show steps.getLast? = _
    rw [hsteps, List.getLast?_append, hdrop, Option.some_or, hs]
  | none =>
    -- Then nothing goes down, and the last step is not a name.
    rw [hdrop, Option.none_or] at hs
    have hmem := List.mem_of_getLast? hs
    exact absurd (List.eq_of_mem_replicate hmem) (by simp)

/-! ## When an import is made relative -/

/-- The directory of a file, seen from the base. -/
def directory (a : AliasMap) (file : String) : Path := (a.anchor (Path.ofText file)).parent

/-- How many steps of the directory of a file lie beyond what it has in common
with an imported file. -/
def climbs (a : AliasMap) (file : String) (m : Match) : Nat :=
  (a.directory file).steps.length - Path.common (a.target m).steps (a.directory file).steps

/-- The path from the directory of a file to an imported one. -/
def detour (a : AliasMap) (file : String) (m : Match) : List Step :=
  List.replicate (a.climbs file m) .up ++
    (a.target m).steps.drop (Path.common (a.target m).steps (a.directory file).steps)

/-- That a path, seen from the base, does not go up above the root. -/
def StaysBelowRoot (a : AliasMap) (p : Path) : Prop := ((Path.ofText a.base).join p).rise = 0

section Shorten

variable {a : AliasMap} {file : String} {m : Match}

theorem allNames_anchor {p : Path} (h : a.StaysBelowRoot p) : AllNames (a.anchor p).steps :=
  Path.steps_normalize_of_rise h

theorem allNames_directory (h : a.StaysBelowRoot (Path.ofText file)) :
    AllNames (a.directory file).steps :=
  (allNames_anchor h).of_subset (List.dropLast_sublist _).subset

theorem relativeTo?_target (ha : (Path.ofText a.base).absolute = true)
    (hfile : a.StaysBelowRoot (Path.ofText file)) :
    Path.relativeTo? (a.directory file) (a.target m) = some ⟨false, a.detour file m⟩ := by
  have htarget : (a.target m).absolute = true := absolute_anchor ha _
  have hdirectory : (a.directory file).absolute = true := absolute_anchor ha _
  unfold Path.relativeTo?
  rw [if_pos (htarget.trans hdirectory.symm), Path.between_names (allNames_directory hfile)]
  rfl

/-- An import is made relative exactly if that takes no more steps up than allowed. -/
theorem shorten?_eq (ha : (Path.ofText a.base).absolute = true)
    (hfile : a.StaysBelowRoot (Path.ofText file))
    (htarget : AllNames (a.target m).steps) (maxDepth : Nat) :
    shorten? (a.directory file) (a.target m) maxDepth =
      if a.climbs file m ≤ maxDepth then some (relativeSpecifier ⟨false, a.detour file m⟩)
      else none := by
  have hups : Path.ups ⟨false, a.detour file m⟩ = a.climbs file m :=
    Path.filter_up_between (htarget.of_subset (List.drop_subset _ _))
  unfold shorten?
  rw [relativeTo?_target ha hfile, Option.bind_eq_bind, Option.bind_some, hups]

/-- A relative import leads to the imported file, and goes up as often as the
directory of the importing file asks for. -/
theorem relative_spec (ha : (Path.ofText a.base).absolute = true)
    (hfile : a.StaysBelowRoot (Path.ofText file)) (htarget : AllNames (a.target m).steps)
    {p : Path} (hp : p = ⟨false, (bare ⟨false, a.detour file m⟩).steps⟩ ∨
      p = ⟨false, .here :: (bare ⟨false, a.detour file m⟩).steps⟩) :
    StandsFor ((a.directory file).join p).normalize (a.target m) ∧ p.ups = a.climbs file m := by
  have hsteps := steps_bare_ups_append (a.climbs file m)
    ((a.target m).steps.drop (Path.common (a.target m).steps (a.directory file).steps))
  have hafter := allNames_bare (p := ⟨false,
    (a.target m).steps.drop (Path.common (a.target m).steps (a.directory file).steps)⟩)
    (htarget.of_subset (List.drop_subset _ _))
  have hlead : p.steps.foldl Path.advance (a.directory file).normalize.steps =
      (a.target m).steps.take (Path.common (a.target m).steps (a.directory file).steps) ++
        (bare ⟨false, (a.target m).steps.drop
          (Path.common (a.target m).steps (a.directory file).steps)⟩).steps := by
    rw [← Path.foldl_between (allNames_directory hfile) hafter]
    -- Staying in place leads nowhere.
    rcases hp with rfl | rfl <;> rw [detour, hsteps] <;> rfl
  have hups : p.ups = a.climbs file m := by
    rw [← Path.filter_up_between (n := a.climbs file m) hafter]
    rcases hp with rfl | rfl <;> rw [detour, hsteps] <;> rfl
  have hrelative : p.absolute = false := by
    rcases hp with rfl | rfl <;> rfl
  refine ⟨?_, hups⟩
  have hboth : (a.directory file).absolute = (a.target m).absolute :=
    (absolute_anchor ha _).trans (absolute_anchor ha _).symm
  rw [Path.normalize_join hrelative, hlead, hboth]
  exact standsFor_take_append _ _ _

end Shorten

/-! ## Above the root -/

section Lead

variable {a : AliasMap} {file specifier : String} {m : Match}

theorem settled_directory : Path.Settled (a.directory file).steps :=
  (Path.settled_normalize _).of_front (List.dropLast_prefix _)

theorem settled_target : Path.Settled (a.target m).steps := Path.settled_normalize _

/-- If a path leads from the directory of a file to an imported one, it is this
one, also above the root. -/
theorem relativeTo?_eq_some (ha : (Path.ofText a.base).absolute = true) {p : Path}
    (h : Path.relativeTo? (a.directory file) (a.target m) = some p) :
    p = ⟨false, a.detour file m⟩ := by
  have htarget : (a.target m).absolute = true := absolute_anchor ha _
  have hdirectory : (a.directory file).absolute = true := absolute_anchor ha _
  unfold Path.relativeTo? at h
  rw [if_pos (htarget.trans hdirectory.symm)] at h
  obtain ⟨steps, hsteps, rfl⟩ := Option.map_eq_some_iff.1 h
  rw [Path.between_eq_some settled_directory.here_not_mem hsteps]
  rfl

/-- An import without an alias is kept. -/
theorem resolve_of_not_longest (hsorted : a.roots.Sorted)
    (hnone : ∀ m, ¬ a.Longest specifier m) (file : String) (maxDepth : Nat) :
    a.resolve file specifier maxDepth = specifier := by
  unfold resolve
  rw [(match?_eq_none_iff hsorted).2 hnone]

/-- An import with an alias is kept, or it becomes the path to the imported file. -/
theorem resolve_eq_or (hsorted : a.roots.Sorted) (ha : (Path.ofText a.base).absolute = true)
    (hm : a.Longest specifier m) (file : String) (maxDepth : Nat) :
    a.resolve file specifier maxDepth = specifier ∨
      a.resolve file specifier maxDepth = relativeSpecifier ⟨false, a.detour file m⟩ := by
  have hresolve : a.resolve file specifier maxDepth =
      (shorten? (a.directory file) (a.target m) maxDepth).getD specifier := by
    unfold resolve
    rw [(match?_eq_some_iff hsorted).2 hm]
    rfl
  rw [hresolve]
  cases hshorten : shorten? (a.directory file) (a.target m) maxDepth with
  | none => exact .inl rfl
  | some s =>
    right
    obtain ⟨p, hp, hs⟩ := Option.bind_eq_some_iff.1 hshorten
    rw [relativeTo?_eq_some ha hp] at hs
    split at hs
    · exact (Option.some.inj hs).symm
    · cases hs

/-- The path leads from the directory of the file to the imported one. -/
theorem join_detour (ha : (Path.ofText a.base).absolute = true) {p : Path}
    (hp : p = ⟨false, a.detour file m⟩ ∨ p = ⟨false, .here :: a.detour file m⟩) :
    ((a.directory file).join p).normalize = a.target m := by
  have hrelative : p.absolute = false := by
    rcases hp with rfl | rfl <;> rfl
  have hlead : p.steps.foldl Path.advance (a.directory file).normalize.steps =
      (a.target m).steps := by
    rw [← Path.foldl_between_of_settled settled_target settled_directory]
    rcases hp with rfl | rfl <;> rfl
  have hboth : (a.directory file).absolute = (a.target m).absolute :=
    (absolute_anchor ha _).trans (absolute_anchor ha _).symm
  rw [Path.normalize_join hrelative, hlead, hboth]

/-- It has no extension if the imported file has none. -/
theorem bare_detour (h : bare (a.target m) = a.target m) :
    bare ⟨false, a.detour file m⟩ = ⟨false, a.detour file m⟩ := by
  have hdown : (bare ⟨false, (a.target m).steps.drop
      (Path.common (a.target m).steps (a.directory file).steps)⟩).steps =
      (a.target m).steps.drop (Path.common (a.target m).steps (a.directory file).steps) := by
    generalize Path.common (a.target m).steps (a.directory file).steps = n
    generalize a.target m = p at h
    rcases List.eq_nil_or_concat (p.steps.drop n) with hnil | ⟨front, s, hdrop⟩
    · rw [hnil]
      rfl
    · have hp : p = ⟨p.absolute, (p.steps.take n ++ front) ++ [s]⟩ := by
        rw [List.append_assoc, ← List.concat_eq_append, ← hdrop, List.take_append_drop]
      rw [hp, bare_concat] at h
      have hs := List.append_cancel_left (Path.mk.inj h).2
      rw [hdrop, List.concat_eq_append, bare_concat, hs]
  have hsteps := steps_bare_ups_append (a.climbs file m)
    ((a.target m).steps.drop (Path.common (a.target m).steps (a.directory file).steps))
  rw [hdown] at hsteps
  exact congrArg (Path.mk false) hsteps

/-- A path that goes down at once begins where the directory ends. -/
theorem steps_target_of_detour {name : String} {rest : List Step}
    (h : a.detour file m = .name name :: rest) :
    (a.target m).steps = (a.directory file).steps ++ .name name :: rest := by
  have htake := Path.take_common (a.target m).steps (a.directory file).steps
  unfold detour climbs at h
  cases hn : (a.directory file).steps.length -
      Path.common (a.target m).steps (a.directory file).steps with
  | succ n =>
    rw [hn] at h
    cases h
  | zero =>
    rw [hn, List.replicate_zero, List.nil_append] at h
    calc (a.target m).steps
        = (a.target m).steps.take (Path.common (a.target m).steps (a.directory file).steps) ++
            (a.target m).steps.drop (Path.common (a.target m).steps (a.directory file).steps) :=
          (List.take_append_drop _ _).symm
      _ = (a.directory file).steps ++ .name name :: rest := by
          rw [htake, List.take_of_length_le (by omega), h]

end Lead

/-! ## What becomes of an import -/

section Resolve

variable {a : AliasMap} {file specifier : String} {m : Match}

theorem proper_detour : Path.Proper ⟨false, a.detour file m⟩ := by
  have htarget : (a.target m).Proper :=
    Path.proper_normalize (Path.properName_of_join Path.properName_of_ofText
      (Path.properName_of_join Path.properName_of_ofText Path.properName_of_ofText))
  intro s hs
  rcases List.mem_append.1 hs with hs | hs
  · rw [List.eq_of_mem_replicate hs]
    trivial
  · exact htarget s (List.drop_subset _ _ hs)

theorem plain_target (ha : a.Regular) (hplain : '\\' ∉ specifier.toList)
    (hm : a.Uses specifier m) : Plain (a.target m) := by
  have hrest : '\\' ∉ m.rest.toList := by
    intro hmem
    apply hplain
    rw [hm.specifier, String.toList_append]
    exact List.mem_append_right _ hmem
  exact plain_normalize (plain_join (plain_ofText ha.base_plain)
    (plain_join (plain_ofText (ha.root_plain _ _ hm.root)) (plain_ofText hrest)))

theorem plain_detour (h : Plain (a.target m)) : Plain ⟨false, a.detour file m⟩ := by
  intro s hs
  rcases List.mem_append.1 hs with hs | hs
  · exact absurd (List.eq_of_mem_replicate hs) (by simp)
  · exact h s (List.drop_subset _ _ hs)

theorem head?_of_uses (hm : a.Uses specifier m) (hdot : specifier.toList.head? = some '.') :
    m.name.toList.head? = some '.' := by
  rw [hm.specifier, String.append_assoc, String.toList_append] at hdot
  cases hname : m.name.toList with
  | nil =>
    rw [hname] at hdot
    simp at hdot
  | cons c cs =>
    rw [hname] at hdot
    exact hdot

/-- The conditions on an alias under which its imports are made relative as they
should: the file lies below the root, and its name is more than dots. -/
structure Expandable (a : AliasMap) (m : Match) : Prop where
  below : a.StaysBelowRoot ((Path.ofText m.root).join (Path.ofText m.rest))
  keeps : KeepsName (a.target m)

theorem Expandable.allNames_target (h : a.Expandable m) : AllNames (a.target m).steps :=
  allNames_anchor h.below

theorem resolve_of_none (ha : a.Regular) (hnone : ∀ m, ¬ a.Longest specifier m)
    (maxDepth : Nat) : a.resolve file specifier maxDepth = specifier :=
  resolve_of_not_longest ha.sorted hnone file maxDepth

/-- What becomes of an import with an alias. -/
theorem resolve_of_longest (ha : a.Regular) (hfile : a.StaysBelowRoot (Path.ofText file))
    (hm : a.Longest specifier m) (hexpand : a.Expandable m) (maxDepth : Nat) :
    a.resolve file specifier maxDepth =
      if a.climbs file m ≤ maxDepth then relativeSpecifier ⟨false, a.detour file m⟩
      else specifier := by
  have hshorten := shorten?_eq ha.absolute hfile hexpand.allNames_target maxDepth
  rw [directory] at hshorten
  unfold resolve
  rw [(match?_eq_some_iff ha.sorted).2 hm]
  dsimp only
  rw [hshorten]
  by_cases hnear : a.climbs file m ≤ maxDepth
  · rw [if_pos hnear, if_pos hnear, Option.getD_some]
  · rw [if_neg hnear, if_neg hnear, Option.getD_none]

/-- An import without alias stays as it is. One with an alias stays as it is if
the imported file is too far up. Otherwise it is relative: it leads to the
imported file, perhaps without extension, and goes up exactly as often as the
directory of the importing file has steps beyond what both have in common. It can
then be the import as it was written only if its alias begins with a dot. A
greater limit never brings an alias back. -/
theorem resolve_exact (ha : a.Regular) (hplain : '\\' ∉ specifier.toList)
    (hfile : a.StaysBelowRoot (Path.ofText file))
    (hexpand : ∀ m, a.Longest specifier m → a.Expandable m) :
    ((∀ m, ¬ a.Longest specifier m) → ∀ maxDepth, a.resolve file specifier maxDepth = specifier) ∧
      (∀ m, a.Longest specifier m → ∀ maxDepth,
        (maxDepth < a.climbs file m → a.resolve file specifier maxDepth = specifier) ∧
        (a.climbs file m ≤ maxDepth →
          StandsFor ((a.directory file).join
            (Path.ofText (a.resolve file specifier maxDepth))).normalize (a.target m) ∧
          (Path.ofText (a.resolve file specifier maxDepth)).ups = a.climbs file m ∧
          (a.resolve file specifier maxDepth = specifier → m.name.toList.head? = some '.'))) ∧
      (∀ maxDepth maxDepth', maxDepth ≤ maxDepth' →
        a.resolve file specifier maxDepth ≠ specifier →
        a.resolve file specifier maxDepth' = a.resolve file specifier maxDepth) := by
  refine ⟨resolve_of_none ha, ?_, ?_⟩
  · intro m hm maxDepth
    have hresolve := resolve_of_longest ha hfile hm (hexpand m hm) maxDepth
    refine ⟨?_, ?_⟩
    · intro hfar
      rw [hresolve, if_neg (by omega)]
    · intro hnear
      rw [if_pos hnear] at hresolve
      have hproper : Path.Proper ⟨false, a.detour file m⟩ := proper_detour
      obtain ⟨hdot, hread⟩ := relativeSpecifier_spec hproper
        (plain_detour (plain_target ha hplain hm.uses))
        (keepsName_ups_append _ (hexpand m hm).keeps)
      obtain ⟨hleads, hups⟩ := relative_spec ha.absolute hfile
        (hexpand m hm).allNames_target hread
      rw [hresolve]
      refine ⟨hleads, hups, ?_⟩
      intro hsame
      apply head?_of_uses hm.uses
      rw [← hsame]
      exact hdot
  · -- What differs from the import is relative, and stays so when the limit grows.
    intro maxDepth maxDepth' hle hne
    by_cases hm : ∃ m, a.Longest specifier m
    · obtain ⟨m, hm⟩ := hm
      have hresolve := resolve_of_longest ha hfile hm (hexpand m hm)
      rw [hresolve] at hne
      have hnear : a.climbs file m ≤ maxDepth := by
        by_contra hfar
        rw [if_neg hfar] at hne
        exact hne rfl
      rw [hresolve, hresolve, if_pos hnear, if_pos (Nat.le_trans hnear hle)]
    · exact absurd (resolve_of_none ha (fun m h => hm ⟨m, h⟩) maxDepth) hne

end Resolve

/-- In the standard map a file three directories away is imported by its alias
when two steps up are allowed, and relatively when three are. -/
theorem resolve_exact_standard :
    (standard "/work/app").Longest "@/shared/api/dto.ts" ⟨"@", "src", "shared/api/dto.ts"⟩ ∧
      (standard "/work/app").resolve "src/entities/user/api/queries.ts" "@/shared/api/dto.ts" 2 =
        "@/shared/api/dto.ts" ∧
      (Path.ofText ((standard "/work/app").resolve "src/entities/user/api/queries.ts"
        "@/shared/api/dto.ts" 3)).ups = 3 := by
  have hregular : (standard "/work/app").Regular :=
    (regular_new (by decide) (by decide)).insert "@" (by decide)
  have hm : (standard "/work/app").Longest "@/shared/api/dto.ts"
      ⟨"@", "src", "shared/api/dto.ts"⟩ :=
    (match?_eq_some_iff hregular.sorted).1 (by decide +kernel)
  have hexpand : ∀ m, (standard "/work/app").Longest "@/shared/api/dto.ts" m →
      (standard "/work/app").Expandable m := by
    intro m h
    obtain rfl := hm.unique h
    refine ⟨by unfold StaysBelowRoot; decide +kernel, ?_⟩
    have hlast : ((standard "/work/app").target
        ⟨"@", "src", "shared/api/dto.ts"⟩).steps.getLast? = some (.name "dto.ts") := by
      decide +kernel
    exact keepsName_of_mem hlast (c := 'd') (by decide +kernel) (by decide)
  have hclimbs : (standard "/work/app").climbs "src/entities/user/api/queries.ts"
      ⟨"@", "src", "shared/api/dto.ts"⟩ = 3 := by decide +kernel
  have hfile : (standard "/work/app").StaysBelowRoot
      (Path.ofText "src/entities/user/api/queries.ts") := by
    unfold StaysBelowRoot
    decide +kernel
  obtain ⟨-, hlongest, -⟩ := resolve_exact hregular (by decide) hfile hexpand
  obtain ⟨hfar, -⟩ := hlongest _ hm 2
  obtain ⟨-, hnear⟩ := hlongest _ hm 3
  obtain ⟨-, hups, -⟩ := hnear (Nat.le_of_eq hclimbs)
  exact ⟨hm, hfar (by rw [hclimbs]; decide), hups.trans hclimbs⟩

/-- An alias that is a single dot can be the relative import as well. -/
theorem resolve_unchanged_near :
    ((new "/w").insert "." "src").Regular ∧
      ((new "/w").insert "." "src").StaysBelowRoot (Path.ofText "src/a.ts") ∧
      ((new "/w").insert "." "src").Longest "./foo" ⟨".", "src", "foo"⟩ ∧
      ((new "/w").insert "." "src").Expandable ⟨".", "src", "foo"⟩ ∧
      ((new "/w").insert "." "src").climbs "src/a.ts" ⟨".", "src", "foo"⟩ ≤ 2 ∧
      ((new "/w").insert "." "src").resolve "src/a.ts" "./foo" 2 = "./foo" := by
  have hregular : ((new "/w").insert "." "src").Regular :=
    (regular_new (by decide) (by decide)).insert "." (by decide)
  have hlast : (((new "/w").insert "." "src").target ⟨".", "src", "foo"⟩).steps.getLast? =
      some (.name "foo") := by
    decide +kernel
  exact ⟨hregular, by unfold StaysBelowRoot; decide +kernel,
    (match?_eq_some_iff hregular.sorted).1 (by decide +kernel),
    ⟨by unfold StaysBelowRoot; decide +kernel,
      keepsName_of_mem hlast (c := 'f') (by decide +kernel) (by decide)⟩,
    by decide +kernel, by decide +kernel⟩

end ClientRoutes.AliasMap
