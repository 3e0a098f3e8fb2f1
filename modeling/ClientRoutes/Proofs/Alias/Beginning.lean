import ClientRoutes.Proofs.Alias.Resolve

/-
  How a relative import begins.

  A relative import begins with `./` or `../`, or is one of the two without the
  slash. Where the way to the imported file goes up or nowhere, its text does so by
  itself or gets `./` in front. Where it goes down at once it gets `./` too, unless
  its first name begins with a dot: then the import has the form of a package.

  What is proved:
    1. `isRelative_iff_front` — what stands before the first slash decides.
    2. `relativeSpecifier_iff` — the import of a way is relative unless its first
       name is hidden.
    3. `isRelative_relativeSpecifier` — a way without a dot at the front.
    4. `resolve_isRelative_iff` — which imports of a file are relative.
    5. `resolve_hidden` — a file in a hidden directory.
-/

namespace ClientRoutes.AliasMap

open ClientRoutes.Path (Step)

/-- That an import begins as a relative one. -/
def IsRelative (s : String) : Prop := s = ".." ∨ ∃ t, s = "./" ++ t ∨ s = "../" ++ t

/-! ## Before the first slash -/

/-- What a text has before its first slash. -/
def front (s : String) : List Char := s.toList.takeWhile (· != '/')

theorem takeWhile_append_slash (s t : List Char) :
    (s ++ '/' :: t).takeWhile (· != '/') = s.takeWhile (· != '/') := by
  induction s with
  | nil => rfl
  | cons c s ih => rw [List.cons_append, List.takeWhile_cons, List.takeWhile_cons, ih]

theorem front_append_slash (s t : String) : front (s ++ "/" ++ t) = front s := by
  rw [front, String.append_assoc, String.toList_append, String.toList_append]
  exact takeWhile_append_slash _ _

/-- A text is its front, or goes on behind it with a slash. -/
theorem eq_front_or (s : String) :
    s.toList = front s ∨ ∃ t, s.toList = front s ++ '/' :: t := by
  have hcut : s.toList = front s ++ s.toList.dropWhile (· != '/') :=
    List.takeWhile_append_dropWhile.symm
  cases hrest : s.toList.dropWhile (· != '/') with
  | nil =>
    rw [hrest, List.append_nil] at hcut
    exact .inl hcut
  | cons c rest =>
    have hne : s.toList.dropWhile (· != '/') ≠ [] := by simp [hrest]
    have hslash : c = '/' := by
      have hc := List.head_dropWhile_not (· != '/') hne
      simpa [hrest] using hc
    rw [hrest, hslash] at hcut
    exact .inr ⟨rest, hcut⟩

/-- A text is relative if the directory where it stands, or the one above, comes
before its first slash. -/
theorem isRelative_iff_front (s : String) :
    (s = "." ∨ IsRelative s) ↔ front s = ['.'] ∨ front s = ['.', '.'] := by
  constructor
  · rintro (rfl | rfl | ⟨t, rfl | rfl⟩)
    · exact .inl (by decide)
    · exact .inr (by decide)
    · exact .inl (front_append_slash "." t)
    · exact .inr (front_append_slash ".." t)
  · rintro (h | h)
    · rcases eq_front_or s with hs | ⟨t, hs⟩
      · exact .inl (String.toList_injective (hs.trans h))
      · exact .inr (.inr ⟨String.ofList t, .inl (String.toList_injective (by simp [hs, h]))⟩)
    · rcases eq_front_or s with hs | ⟨t, hs⟩
      · exact .inr (.inl (String.toList_injective (hs.trans h)))
      · exact .inr (.inr ⟨String.ofList t, .inr (String.toList_injective (by simp [hs, h]))⟩)

theorem head?_front {s : String} : (front s).head? = some '.' ↔ s.toList.head? = some '.' := by
  cases hs : s.toList with
  | nil => simp [front, hs]
  | cons c cs =>
    rw [front, hs, List.takeWhile_cons]
    by_cases hc : c = '/'
    · simp [hc]
    · simp [hc]

/-- A text that begins with a dot, but with no directory that is written by dots. -/
def Hidden (s : String) : Prop :=
  s.toList.head? = some '.' ∧ front s ≠ ['.'] ∧ front s ≠ ['.', '.']

/-! ## The import of a way -/

/-- The first name of a way as its import shows it: with slashes, and without
extension if nothing follows. -/
def shownName (name : String) (rest : List Step) : String :=
  if rest = [] then withoutExtension (withSlashes name) else withSlashes name

theorem text_cons_cons (s s' : Step) (rest : List Step) :
    Path.text ⟨false, s :: s' :: rest⟩ = s.text ++ "/" ++ Path.text ⟨false, s' :: rest⟩ := by
  simp [Path.text, String.intercalate_cons_cons]

theorem withSlashes_append (s t : String) :
    withSlashes (s ++ t) = withSlashes s ++ withSlashes t := by
  apply String.toList_injective
  simp [withSlashes]

/-- The front of a longer way comes from its first step. -/
theorem shown_cons_cons (s s' : Step) (rest : List Step) :
    front (withoutExtension (withSlashes (Path.text ⟨false, s :: s' :: rest⟩))) =
      front (withSlashes s.text) := by
  have hslash : withSlashes "/" = "/" := by decide
  rw [text_cons_cons, withSlashes_append, withSlashes_append, hslash,
    withoutExtension_append_right (.inr ⟨_, rfl⟩), front_append_slash]

theorem hidden_congr {s t : String} (h : front s = front t) : Hidden s ↔ Hidden t := by
  unfold Hidden
  rw [← head?_front, ← head?_front, h]

/-- The text of a way is hidden exactly if its first step is a hidden name. -/
theorem hidden_text_iff {steps : List Step} (hproper : Path.Proper ⟨false, steps⟩) :
    Hidden (withoutExtension (withSlashes (Path.text ⟨false, steps⟩))) ↔
      ∃ name rest, steps = .name name :: rest ∧ Hidden (shownName name rest) := by
  cases steps with
  | nil =>
    constructor
    · rintro ⟨hdot, -⟩
      exact absurd hdot (by decide)
    · rintro ⟨name, rest, h, -⟩
      cases h
  | cons s rest =>
    cases s with
    | here => exact absurd (hproper .here List.mem_cons_self) id
    | up =>
      have hfront : front (withoutExtension (withSlashes (Path.text ⟨false, .up :: rest⟩))) =
          ['.', '.'] := by
        cases rest with
        | nil => decide
        | cons s' rest =>
          rw [shown_cons_cons]
          decide
      constructor
      · rintro ⟨-, -, hne⟩
        exact absurd hfront hne
      · rintro ⟨name, rest', h, -⟩
        cases h
    | name name =>
      have hfront : front (withoutExtension (withSlashes (Path.text ⟨false, .name name :: rest⟩))) =
          front (shownName name rest) := by
        cases rest with
        | nil => simp [shownName, Path.text, Step.text]
        | cons s' rest => rw [shown_cons_cons, shownName, if_neg (by simp), Step.text]
      rw [hidden_congr hfront]
      constructor
      · exact fun h => ⟨name, rest, rfl, h⟩
      · rintro ⟨name', rest', h, hidden⟩
        cases h
        exact hidden

/-- The import of a way is relative unless its first name is hidden. -/
theorem relativeSpecifier_iff {steps : List Step} (hproper : Path.Proper ⟨false, steps⟩) :
    (relativeSpecifier ⟨false, steps⟩ = "." ∨ IsRelative (relativeSpecifier ⟨false, steps⟩)) ↔
      ∀ name rest, steps = .name name :: rest → ¬ Hidden (shownName name rest) := by
  have hvisible : (∀ name rest, steps = .name name :: rest → ¬ Hidden (shownName name rest)) ↔
      ¬ Hidden (withoutExtension (withSlashes (Path.text ⟨false, steps⟩))) := by
    rw [hidden_text_iff hproper]
    simp
  rw [hvisible]
  unfold relativeSpecifier
  generalize withoutExtension (withSlashes (Path.text ⟨false, steps⟩)) = s
  by_cases hdot : s.toList.head? = some '.'
  · -- The text is the import, and its front decides.
    simp only [hdot, beq_self_eq_true, if_true, isRelative_iff_front, Hidden, true_and,
      not_and_or, not_not]
  · have hb : (s.toList.head? == some '.') = false := by simpa using hdot
    simp only [hb, Bool.false_eq_true, if_false]
    exact ⟨fun _ h => hdot h.1, fun _ => .inr (.inr ⟨s, .inl rfl⟩)⟩

theorem head?_withSlashes {s : String} (h : (withSlashes s).toList.head? = some '.') :
    s.toList.head? = some '.' := by
  rw [withSlashes, Text.toList_replaceChar] at h
  cases hs : s.toList with
  | nil => simp [hs] at h
  | cons c cs =>
    rw [hs] at h
    by_cases hc : c = '\\'
    · simp [hc] at h
    · simpa [hc] using h

theorem head?_withoutExtension {s : String} (h : (withoutExtension s).toList.head? = some '.') :
    s.toList.head? = some '.' := by
  rcases withoutExtension_eq_or s with ⟨ext, -, hs⟩ | ⟨hs, -⟩
  · obtain ⟨cs, hcs⟩ := List.head?_eq_some_iff.1 h
    rw [hs, String.toList_append, hcs]
    rfl
  · rwa [hs] at h

/-- Only a name that begins with a dot is hidden. -/
theorem head?_of_hidden {name : String} {rest : List Step} (h : Hidden (shownName name rest)) :
    name.toList.head? = some '.' := by
  have hdot := h.1
  unfold shownName at hdot
  split at hdot
  · exact head?_withSlashes (head?_withoutExtension hdot)
  · exact head?_withSlashes hdot

/-- The import of a path is relative, unless the path begins with a hidden name. -/
theorem isRelative_relativeSpecifier {steps : List Step} (hproper : Path.Proper ⟨false, steps⟩)
    (hplain : Plain ⟨false, steps⟩) (hbare : bare ⟨false, steps⟩ = ⟨false, steps⟩)
    (hvisible : ∀ name rest, steps = .name name :: rest → name.toList.head? ≠ some '.') :
    IsRelative (relativeSpecifier ⟨false, steps⟩) := by
  have hbare' : (bare ⟨false, steps⟩).Proper := by rwa [hbare]
  rcases (relativeSpecifier_iff hproper).2 fun name rest h hidden =>
    hvisible name rest h (head?_of_hidden hidden) with hdot | h
  · -- A single dot is read as a step that no proper path has.
    obtain ⟨-, hread⟩ := ofText_relativeSpecifier hbare' hplain
    have hhere : Path.ofText "." = ⟨false, [.here]⟩ := by decide
    rw [hdot, hbare, hhere] at hread
    rcases hread with hread | hread
    · obtain rfl := (Path.mk.inj hread).2
      exact absurd (hproper .here List.mem_cons_self) id
    · obtain rfl : steps = [] := ((List.cons.inj (Path.mk.inj hread).2).2).symm
      exact absurd hdot (by decide)
  · exact h

/-! ## The imports of a file -/

/-- What an import with an alias becomes, if it does not stay as it is, is relative
unless the way to the imported file goes down at once and begins with a hidden
name. -/
theorem resolve_isRelative_iff {a : AliasMap} {file specifier : String} {maxDepth : Nat}
    (hsorted : a.roots.Sorted) (ha : (Path.ofText a.base).absolute = true)
    (hne : a.resolve file specifier maxDepth ≠ specifier) :
    ∃ m, a.Longest specifier m ∧
      ((a.resolve file specifier maxDepth = "." ∨ IsRelative (a.resolve file specifier maxDepth)) ↔
        ∀ name rest, a.detour file m = .name name :: rest → ¬ Hidden (shownName name rest)) := by
  by_cases hm : ∃ m, a.Longest specifier m
  · obtain ⟨m, hm⟩ := hm
    refine ⟨m, hm, ?_⟩
    rw [(resolve_eq_or hsorted ha hm file maxDepth).resolve_left hne]
    exact relativeSpecifier_iff proper_detour
  · exact absurd (resolve_of_not_longest hsorted (fun m h => hm ⟨m, h⟩) file maxDepth) hne

/-- With two steps up allowed, `@/shared/dto` becomes `../shared/dto` in `src/feature`. -/
theorem resolve_isRelative_iff_standard :
    (standard "/project").resolve "src/feature/index.ts" "@/shared/dto" 2 ≠ "@/shared/dto" ∧
      IsRelative ((standard "/project").resolve "src/feature/index.ts" "@/shared/dto" 2) := by
  have hsorted : (standard "/project").roots.Sorted :=
    TextMap.sorted_insert TextMap.sorted_empty "@" _
  have hne : (standard "/project").resolve "src/feature/index.ts" "@/shared/dto" 2 ≠
      "@/shared/dto" := by
    decide +kernel
  obtain ⟨m, hm, hrelative⟩ := resolve_isRelative_iff hsorted (by decide) hne
  obtain rfl := ((match?_eq_some_iff hsorted).1
    (show (standard "/project").match? "@/shared/dto" = some ⟨"@", "src", "shared/dto"⟩ by
      decide +kernel)).unique hm
  have hdetour : (standard "/project").detour "src/feature/index.ts" ⟨"@", "src", "shared/dto"⟩ =
      [.up, .name "shared", .name "dto"] := by
    decide +kernel
  refine ⟨hne, (hrelative.2 ?_).resolve_left (by decide +kernel)⟩
  intro name rest h
  rw [hdetour] at h
  cases h

/-- A file in a hidden directory beside the importing file is imported as if the
directory were a package. -/
theorem resolve_hidden :
    (Path.ofText (standard "/work/app").base).absolute = true ∧
      (standard "/work/app").resolve "src/a.ts" "@/.config/x" 2 = ".config/x" ∧
      ".config/x" ≠ "@/.config/x" ∧ ¬ (".config/x" = "." ∨ IsRelative ".config/x") := by
  refine ⟨by decide, by decide +kernel, by decide, ?_⟩
  rw [isRelative_iff_front]
  decide

end ClientRoutes.AliasMap
