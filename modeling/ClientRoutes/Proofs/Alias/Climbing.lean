import ClientRoutes.Proofs.Alias.Derive
import ClientRoutes.Proofs.Path.Climbing

/-
  Imports of files above the base.

  The directories of aliases are compared with a path after it is normalized, so
  an import is derived for the place where the normalized path leads. That is the
  file itself if the path rises at most once above the base. A path that rises
  more often is taken for one that lies less far up, and can get the alias of a
  directory that does not hold it.

  What is proved:
    1. `derive_eq_or` — an import is made with a deepest directory, or it is the
       path itself.
    2. `Holds.anchor_join` — what follows the directory leads where the normalized
       path leads.
    3. `derive_leads_iff` — when that is the file.
    4. `derive_enters` — a file outside that gets the alias of a directory.
-/

namespace ClientRoutes.AliasMap

open ClientRoutes.Path (AllNames)

variable {a : AliasMap} {p : Path} {path name root : String} {rest : Path}

/-- The directory of the alias that the import of a path is made with, and what
follows it. -/
structure DerivedFrom (a : AliasMap) (path name root : String) (rest : Path) : Prop where
  deepest : a.Deepest (a.localize (Path.ofText path)) name root rest
  derive : a.derive path = specifier ⟨name, (Path.ofText root).normalize.depth, rest⟩

/-- An import is made with the alias of a directory that holds the file, or it is
the path without its extension. -/
theorem derive_eq_or (hsorted : a.roots.Sorted) (path : String) :
    a.derive path = withoutExtension (withSlashes path) ∨
      ∃ name root rest, a.DerivedFrom path name root rest := by
  by_cases h : ∃ name root rest, a.Holds (a.localize (Path.ofText path)) name root rest
  · obtain ⟨name, root, rest, h⟩ := h
    obtain ⟨c, root', hc, hdeepest⟩ := exists_deepest hsorted h
    refine .inr ⟨c.name, root', c.rest, hdeepest, ?_⟩
    unfold derive
    rw [hc]
    rfl
  · left
    exact derive_of_not_holds hsorted fun name root rest hholds => h ⟨name, root, rest, hholds⟩

/-! ## Where an import leads -/

theorem normalize_normalize (p : Path) : p.normalize.normalize = p.normalize :=
  congrArg (Path.mk p.absolute) (Path.settled_normalize p).foldl_advance

theorem shallow_normalize (hp : p.absolute = false) : p.normalize.Shallow := by
  have hrelative : p.normalize.absolute = false := hp
  unfold Path.Shallow
  rw [hrelative, Path.rise_normalize]
  exact Nat.le_of_lt_succ (Nat.mod_lt _ (by decide))

/-- What follows the directory leads from there where the normalized path leads. -/
theorem Holds.anchor_join (h : a.Holds p.normalize name root rest)
    (ha : (Path.ofText a.base).absolute = true) (hp : p.absolute = false)
    (hroot : (Path.ofText root).rise ≤ 1) :
    a.anchor ((Path.ofText root).join rest) = a.anchor p.normalize := by
  have hstrip : (Path.ofText root).normalize.stripPrefix? p.normalize.normalize = some rest := by
    rw [normalize_normalize]
    exact h.strip
  obtain ⟨place, hplace⟩ := AliasMap.exists_place ha (shallow_normalize hp) hroot hstrip
  rw [hplace.behind rest rfl, hplace.file]

/-- What goes down behind a directory lies in it. -/
theorem anchor_prefix_join (ha : (Path.ofText a.base).absolute = true) (front : Path)
    (hrest : rest.absolute = false) (hnames : AllNames rest.steps) :
    (a.anchor front).steps <+: (a.anchor (front.join rest)).steps := by
  have hrest : rest = ⟨false, rest.steps⟩ := by
    rw [← hrest]
  rw [hrest, anchor_join_names ha front hnames]
  exact List.prefix_append _ _

/-- A relative path leads from a directory, normalized, to the same place exactly
if it rises at most once; normalizing keeps none of its steps above the start if
their number is even, and one if it is odd. Its import is the path itself or is
made with the alias of a directory. What follows the alias then leads to the file
exactly if the path rises at most once, and if it only goes down, the file lies in
the directory. -/
theorem derive_leads_iff (hsorted : a.roots.Sorted) (ha : (Path.ofText a.base).absolute = true)
    (hbase : AllNames (Path.ofText a.base).steps) (hrelative : (Path.ofText path).absolute = false)
    (hbelow : ((Path.ofText a.base).join (Path.ofText path)).rise = 0) :
    (((Path.ofText a.base).join (Path.ofText path).normalize).normalize =
        ((Path.ofText a.base).join (Path.ofText path)).normalize ↔ (Path.ofText path).rise ≤ 1) ∧
      (Path.ofText path).normalize.ups = (Path.ofText path).rise % 2 ∧
      (a.derive path = withoutExtension (withSlashes path) ∨
        ∃ name root rest, a.DerivedFrom path name root rest ∧
          ((Path.ofText root).rise ≤ 1 →
            (a.anchor ((Path.ofText root).join rest) = a.anchor (Path.ofText path) ↔
              (Path.ofText path).rise ≤ 1) ∧
            ((Path.ofText path).rise ≤ 1 → AllNames rest.steps →
              (a.anchor (Path.ofText root)).steps <+: (a.anchor (Path.ofText path)).steps))) := by
  have hplace := Path.normalize_join_normalize_iff hbase hrelative hbelow
  refine ⟨hplace, Path.ups_normalize _, ?_⟩
  rcases derive_eq_or hsorted path with hself | ⟨name, root, rest, h⟩
  · exact .inl hself
  · refine .inr ⟨name, root, rest, h, ?_⟩
    intro hroot
    have hlocal : a.localize (Path.ofText path) = (Path.ofText path).normalize := by
      simp [localize, hrelative]
    have hholds := h.deepest.holds
    rw [hlocal] at hholds
    have hjoin := hholds.anchor_join ha hrelative hroot
    refine ⟨?_, ?_⟩
    · rw [hjoin]
      exact hplace
    · intro hrise hnames
      have hrest : rest.absolute = false := by
        obtain ⟨-, -, habs⟩ := hholds.exists_append
        cases hcase : rest.absolute with
        | false => rfl
        | true => exact absurd (habs hcase) (by simpa [Path.normalize] using hrelative)
      rw [← show a.anchor (Path.ofText path).normalize = a.anchor (Path.ofText path) from
        hplace.2 hrise, ← hjoin]
      exact anchor_prefix_join ha _ hrest hnames

/-- A file beside the base, one step up, gets the alias of the directory beside the
base, and lies there. -/
theorem derive_leads_iff_beside :
    ∃ name root rest, ((new "/work/app").insert "~" "../lib").DerivedFrom "x/../../lib/a.ts"
        name root rest ∧
      ((new "/work/app").insert "~" "../lib").anchor ((Path.ofText root).join rest) =
        ((new "/work/app").insert "~" "../lib").anchor (Path.ofText "x/../../lib/a.ts") ∧
      (Path.ofText "x/../../lib/a.ts").normalize.ups = 1 := by
  have hsorted : ((new "/work/app").insert "~" "../lib").roots.Sorted :=
    TextMap.sorted_insert TextMap.sorted_empty "~" _
  have hbase : AllNames (Path.ofText "/work/app").steps := by
    rw [show (Path.ofText "/work/app").steps = [.name "work", .name "app"] by decide +kernel]
    simp [AllNames]
  have hrise : (Path.ofText "x/../../lib/a.ts").rise = 1 := by decide +kernel
  have hrelative : (Path.ofText "x/../../lib/a.ts").absolute = false := by decide
  obtain ⟨-, hups, hderive⟩ := derive_leads_iff hsorted (by decide) hbase hrelative
    (by decide +kernel)
  rcases hderive with hself | ⟨name, root, rest, h, hleads⟩
  · exact absurd hself (by decide +kernel)
  · have hroot : root = "../lib" := by
      have hmem := (TextMap.mem_entries_iff hsorted name root).2 h.deepest.holds.listed
      rw [show ((new "/work/app").insert "~" "../lib").roots.entries = [("~", "../lib")] by
        decide +kernel] at hmem
      exact (Prod.mk.inj (List.mem_singleton.1 hmem)).2
    subst hroot
    exact ⟨name, _, rest, h, (hleads (by decide +kernel)).1.2 (Nat.le_of_eq hrise),
      by rw [hups, hrise]⟩

/-- A file two steps above the base is taken for one in `src`: the path leads
elsewhere when it is normalized, and its import has the alias of a directory that
does not hold the file. -/
theorem derive_enters :
    Path.ofText "/work/app/pkg" = ⟨true, [.name "work", .name "app", .name "pkg"]⟩ ∧
      (Path.ofText "../../src/a.ts").absolute = false ∧
      ((Path.ofText "/work/app/pkg").join (Path.ofText "../../src/a.ts")).rise = 0 ∧
      ((Path.ofText "/work/app/pkg").join (Path.ofText "../../src/a.ts").normalize).normalize ≠
        ((Path.ofText "/work/app/pkg").join (Path.ofText "../../src/a.ts")).normalize ∧
      (standard "/work/app/pkg").derive "../../src/a.ts" = "@/a" ∧
      ¬ ((standard "/work/app/pkg").anchor (Path.ofText "src")).steps <+:
        ((standard "/work/app/pkg").anchor (Path.ofText "../../src/a.ts")).steps := by
  refine ⟨?_, ?_, ?_, ?_, ?_, ?_⟩ <;> decide +kernel

end ClientRoutes.AliasMap
