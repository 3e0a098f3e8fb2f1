import ClientRoutes.Proofs.Alias.Extension
import ClientRoutes.Proofs.Alias.Match

/-
  Imports that are derived from files, and where they lead.

  The import of a file is made with the alias of the deepest directory that holds
  the file. It is read with the longest alias that it begins with. Both are the
  same one unless a longer alias goes on like the import does. Then it leads to
  the file exactly if the longer alias names the directory that it goes on to.

  What is proved:
    1. `exists_place`, `Holds.exists_place` — a file is reached from where the
       directory that holds it leads.
    2. `exists_derive_eq`, `derive_of_not_holds` — the import of a file that a
       directory holds, and of one that none holds.
    3. `expand_iff` — where an import leads that a longer alias reads.
    4. `derive_expands` — where the import of a file leads.
    5. `derive_strays` — files whose import leads elsewhere.
-/

namespace ClientRoutes.AliasMap

open ClientRoutes.Path (Step AllNames)

/-! ## Directories that hold a file -/

/-- A path as it is compared with the directories of aliases: without the base,
if it lies there. -/
def fromBase (a : AliasMap) (p : Path) : Path :=
  if p.absolute then ((Path.ofText a.base).stripPrefix? p).getD p else p

/-- That the directory of an alias holds a place, and what follows. -/
structure Holds (a : AliasMap) (p : Path) (name root : String) (rest : Path) : Prop where
  listed : a.roots.get? name = some root
  strip : (Path.ofText root).normalize.stripPrefix? p = some rest

/-- That no directory of an alias holds it at a greater depth. -/
structure Deepest (a : AliasMap) (p : Path) (name root : String) (rest : Path) : Prop where
  holds : a.Holds p name root rest
  deepest : ∀ name' root' rest', a.Holds p name' root' rest' →
    (Path.ofText root').normalize.depth ≤ (Path.ofText root).normalize.depth

variable {a : AliasMap} {p : Path} {name root : String} {rest : Path}

theorem localize_eq (a : AliasMap) (p : Path) : a.localize p = (a.fromBase p).normalize := by
  unfold localize fromBase
  split
  · cases (Path.ofText a.base).stripPrefix? p <;> rfl
  · rfl

/-- What is left of a path behind another one. -/
theorem stripPrefix?_eq_some {front p rest : Path} (h : front.stripPrefix? p = some rest) :
    (front.absolute = p.absolute ∧ rest.absolute = false ∧ p.steps = front.steps ++ rest.steps) ∨
      (front.absolute ≠ p.absolute ∧ front = ⟨false, []⟩ ∧ rest = p) := by
  unfold Path.stripPrefix? at h
  by_cases habs : front.absolute = p.absolute
  · rw [if_pos habs] at h
    obtain ⟨steps, hsteps, rfl⟩ := Option.map_eq_some_iff.1 h
    exact .inl ⟨habs, rfl, (List.isPrefixOf?_eq_some_iff_append_eq.1 hsteps).symm⟩
  · rw [if_neg habs] at h
    split at h
    · next hfront => exact .inr ⟨habs, hfront, (Option.some.inj h).symm⟩
    · cases h

/-- Without the base a path leads to the same place. -/
theorem anchor_fromBase (ha : (Path.ofText a.base).absolute = true) (p : Path) :
    a.anchor (a.fromBase p) = a.anchor p := by
  unfold fromBase
  by_cases habs : p.absolute = true
  · rw [if_pos habs]
    cases h : (Path.ofText a.base).stripPrefix? p with
    | none => rfl
    | some rest =>
      rcases stripPrefix?_eq_some h with ⟨-, hrest, hsteps⟩ | ⟨hne, -, -⟩
      · unfold anchor
        rw [Option.getD_some, Path.normalize_join_of_absolute habs, Path.normalize_join hrest]
        simp only [Path.normalize, hsteps, List.foldl_append, ha, habs]
      · exact absurd (ha.trans habs.symm) hne
  · rw [if_neg habs]

theorem mem_containers_iff (hsorted : a.roots.Sorted) (c : Container) :
    c ∈ a.containers p ↔ ∃ root, a.Holds p c.name root c.rest ∧
      c.depth = (Path.ofText root).normalize.depth := by
  unfold containers
  rw [List.mem_filterMap]
  constructor
  · rintro ⟨⟨name, root⟩, hmem, h⟩
    obtain ⟨rest, hrest, rfl⟩ := Option.map_eq_some_iff.1 h
    exact ⟨root, ⟨(TextMap.mem_entries_iff hsorted _ _).1 hmem, hrest⟩, rfl⟩
  · rintro ⟨root, ⟨hroot, hrest⟩, hdepth⟩
    refine ⟨(c.name, root), (TextMap.mem_entries_iff hsorted _ _).2 hroot, ?_⟩
    show ((Path.ofText root).normalize.stripPrefix? p).map _ = _
    rw [hrest, Option.map_some, ← hdepth]

/-- A deepest directory is found, if some directory holds the place. -/
theorem exists_deepest (hsorted : a.roots.Sorted) (h : a.Holds p name root rest) :
    ∃ c root, lastGreatest? Container.depth (a.containers p) = some c ∧
      a.Deepest p c.name root c.rest := by
  cases hc : lastGreatest? Container.depth (a.containers p) with
  | none =>
    have hmem : (⟨name, (Path.ofText root).normalize.depth, rest⟩ : Container) ∈ a.containers p :=
      (mem_containers_iff hsorted _).2 ⟨root, h, rfl⟩
    rw [lastGreatest?_eq_none_iff.1 hc] at hmem
    cases hmem
  | some c =>
    obtain ⟨hmem, hmax⟩ := lastGreatest?_eq_some hc
    obtain ⟨root, hholds, hdepth⟩ := (mem_containers_iff hsorted _).1 hmem
    refine ⟨c, root, rfl, hholds, ?_⟩
    intro name' root' rest' h'
    have hle := hmax ⟨name', (Path.ofText root').normalize.depth, rest'⟩
      ((mem_containers_iff hsorted _).2 ⟨root', h', rfl⟩)
    rw [hdepth] at hle
    exact hle

/-! ## What follows the directory -/

/-- What follows is the end of the place. -/
theorem Holds.exists_append (h : a.Holds p name root rest) :
    ∃ before, p.steps = before ++ rest.steps ∧ (rest.absolute = true → p.absolute = true) := by
  rcases stripPrefix?_eq_some h.strip with ⟨-, hrest, hsteps⟩ | ⟨-, -, rfl⟩
  · exact ⟨_, hsteps, fun habs => by rw [hrest] at habs; cases habs⟩
  · exact ⟨[], rfl, id⟩

theorem Holds.proper (h : a.Holds p name root rest) (hp : p.Proper) : rest.Proper := by
  obtain ⟨before, hsteps, -⟩ := h.exists_append
  intro s hs
  apply hp s
  rw [hsteps]
  exact List.mem_append_right _ hs

theorem Holds.plain (h : a.Holds p name root rest) (hp : Plain p) : Plain rest := by
  obtain ⟨before, hsteps, -⟩ := h.exists_append
  intro s hs
  apply hp s
  rw [hsteps]
  exact List.mem_append_right _ hs

theorem Holds.keepsName (h : a.Holds p name root rest) (hp : KeepsName p) : KeepsName rest := by
  obtain ⟨before, hsteps, -⟩ := h.exists_append
  intro s hs
  apply hp s
  rw [hsteps, List.getLast?_append, hs, Option.some_or]

/-- Steps of which only the first can go up, and of an absolute path none. -/
def Falls (p : Path) : Prop :=
  AllNames p.steps.tail ∧ (p.absolute = true → AllNames p.steps)

theorem falls_normalize (h : p.Shallow) : Falls p.normalize :=
  ⟨h.allNames_tail, h.allNames⟩

theorem Holds.falls (h : a.Holds p name root rest) (hp : Falls p) : Falls rest := by
  obtain ⟨before, hsteps, habs⟩ := h.exists_append
  refine ⟨hp.1.of_subset ?_, fun hrest => (hp.2 (habs hrest)).of_subset ?_⟩
  · rw [hsteps]
    cases before with
    | nil => exact List.Subset.refl _
    | cons s before =>
      intro x hx
      exact List.mem_append_right _ (List.mem_of_mem_tail hx)
  · rw [hsteps]
    exact List.subset_append_right _ _

theorem Falls.bare (h : Falls p) : Falls (bare p) := by
  refine ⟨?_, fun habs => allNames_bare (h.2 habs)⟩
  obtain ⟨absolute, steps⟩ := p
  rcases List.eq_nil_or_concat steps with rfl | ⟨front, s, rfl⟩
  · exact h.1
  · have hfront := h.1
    rw [List.concat_eq_append] at hfront ⊢
    rw [bare_concat]
    cases front with
    | nil => simp [AllNames]
    | cons x front =>
      refine AllNames.append (hfront.of_subset (List.subset_append_left _ _)) ?_
      obtain ⟨t, rfl⟩ := hfront s (by simp)
      intro y hy
      exact ⟨_, List.mem_singleton.1 hy⟩

/-- Behind a cut there are only names. -/
theorem Falls.allNames_after (h : Falls p) {front back : String} {before after : List Step}
    (hcut : p.CutAt front back before after) : AllNames after := by
  have hsteps := hcut.steps
  cases habs : p.absolute with
  | true =>
    apply (h.2 habs).of_subset
    rw [hsteps]
    exact List.subset_append_right _ _
  | false =>
    obtain ⟨s, before, rfl⟩ := List.exists_cons_of_ne_nil (hcut.before_ne_nil habs)
    apply h.1.of_subset
    rw [hsteps]
    exact List.subset_append_right _ _

/-! ## Where an import leads -/

/-- That a file is reached from some place by what follows a directory, and that
from this place everything behind the directory is reached. -/
structure ReachedFrom (a : AliasMap) (p front rest : Path) (place : List Step) : Prop where
  file : a.anchor p = ⟨true, rest.steps.foldl Path.advance place⟩
  behind : ∀ q : Path, q.absolute = rest.absolute →
    a.anchor (front.join q) = ⟨true, q.steps.foldl Path.advance place⟩

section Reach

variable {front : Path}

theorem reachedFrom_of_relative (ha : (Path.ofText a.base).absolute = true)
    (hp : p.absolute = false) (hfront : front.absolute = false) (hrest : rest.absolute = false)
    (hrise : p.rise ≤ 1) (hrise' : front.rise ≤ 1)
    (hsteps : p.normalize.steps = front.normalize.steps ++ rest.steps) :
    a.ReachedFrom p front rest
      (front.steps.foldl Path.advance (Path.ofText a.base).normalize.steps) where
  file := by
    unfold anchor
    rw [Path.normalize_join hp, ← Path.foldl_normalize hrise, hsteps, List.foldl_append,
      Path.foldl_normalize hrise', ha]
  behind := by
    intro q hq
    have hjoin : front.join q = ⟨false, front.steps ++ q.steps⟩ := by
      simp [Path.join, hq.trans hrest, hfront]
    unfold anchor
    rw [hjoin, Path.normalize_join rfl, ha]
    simp only [List.foldl_append]

theorem reachedFrom_of_absolute (hp : p.absolute = true) (hfront : front.absolute = true)
    (hrest : rest.absolute = false) (hnames : AllNames p.normalize.steps)
    (hsteps : p.normalize.steps = front.normalize.steps ++ rest.steps) :
    a.ReachedFrom p front rest front.normalize.steps where
  file := by
    have hrest : AllNames rest.steps := by
      apply hnames.of_subset
      rw [hsteps]
      exact List.subset_append_right _ _
    have hnormal : p.normalize = ⟨true, p.normalize.steps⟩ := by
      rw [← hp]
      rfl
    unfold anchor
    rw [Path.normalize_join_of_absolute hp, Path.foldl_advance_names _ _ hrest, ← hsteps]
    exact hnormal
  behind := by
    intro q hq
    have hjoin : front.join q = ⟨true, front.steps ++ q.steps⟩ := by
      simp [Path.join, hq.trans hrest, hfront]
    unfold anchor
    rw [hjoin, Path.normalize_join_of_absolute rfl]
    simp only [Path.normalize, List.foldl_append]

/-- The empty path also comes before what is absolute, and leaves all of it. -/
theorem reachedFrom_of_empty (hp : p.absolute = true) (hnames : AllNames p.normalize.steps) :
    a.ReachedFrom p front p.normalize [] where
  file := by
    have hnormal : p.normalize = ⟨true, p.normalize.steps⟩ := by
      rw [← hp]
      rfl
    unfold anchor
    rw [Path.normalize_join_of_absolute hp, Path.foldl_advance_names _ _ hnames, List.nil_append]
    exact hnormal
  behind := by
    intro q hq
    have hqabs : q.absolute = true := hq.trans hp
    have hjoin : front.join q = q := by
      simp [Path.join, hqabs]
    unfold anchor
    rw [hjoin, Path.normalize_join_of_absolute hqabs, ← hqabs]
    rfl

end Reach

/-- What lies behind a directory is reached from where the directory leads. -/
theorem exists_place (ha : (Path.ofText a.base).absolute = true) (hp : p.Shallow)
    (hroot : (Path.ofText root).rise ≤ 1)
    (hstrip : (Path.ofText root).normalize.stripPrefix? p.normalize = some rest) :
    ∃ place, a.ReachedFrom p (Path.ofText root) rest place := by
  rcases stripPrefix?_eq_some hstrip with ⟨habs, hrest, hsteps⟩ | ⟨hne, hfront, rfl⟩
  · cases hpabs : p.absolute with
    | false =>
      exact ⟨_, reachedFrom_of_relative ha hpabs (habs.trans hpabs) hrest hp.rise_le_one hroot
        hsteps⟩
    | true =>
      exact ⟨_, reachedFrom_of_absolute hpabs (habs.trans hpabs) hrest (hp.allNames hpabs) hsteps⟩
  · have hpabs : p.absolute = true := by
      rw [hfront] at hne
      exact eq_true_of_ne_false fun hfalse => hne hfalse.symm
    exact ⟨_, reachedFrom_of_empty hpabs (hp.allNames hpabs)⟩

theorem ReachedFrom.of_anchor_eq {q front : Path} {place : List Step}
    (h : a.ReachedFrom q front rest place) (heq : a.anchor q = a.anchor p) :
    a.ReachedFrom p front rest place where
  file := heq.symm.trans h.file
  behind := h.behind

/-- A file that a directory holds is reached from where the directory leads. -/
theorem Holds.exists_place (ha : (Path.ofText a.base).absolute = true)
    (hp : (a.fromBase p).Shallow) (hroot : (Path.ofText root).rise ≤ 1)
    (h : a.Holds (a.localize p) name root rest) :
    ∃ place, a.ReachedFrom p (Path.ofText root) rest place := by
  have hstrip := h.strip
  rw [localize_eq] at hstrip
  obtain ⟨place, hplace⟩ := AliasMap.exists_place ha hp hroot hstrip
  exact ⟨place, hplace.of_anchor_eq (anchor_fromBase ha p)⟩

/-- From one place, a file and what it is without extension are reached together. -/
theorem bare_foldl {p : Path} {s : String} (hlast : p.steps.getLast? = some (.name s))
    (absolute : Bool) (place : List Step) :
    bare ⟨absolute, p.steps.foldl Path.advance place⟩ =
      ⟨absolute, (bare p).steps.foldl Path.advance place⟩ := by
  obtain ⟨absolute', steps⟩ := p
  obtain ⟨front, rfl⟩ := List.getLast?_eq_some_iff.1 hlast
  rw [bare_concat]
  simp only [List.foldl_append, List.foldl_cons, List.foldl_nil]
  exact bare_concat absolute _ (.name s)

/-- From one place, steps without extension lead to what stands for where the
steps lead. -/
theorem standsFor_foldl (absolute : Bool) (place : List Step) (p : Path) :
    StandsFor ⟨absolute, (bare p).steps.foldl Path.advance place⟩
      ⟨absolute, p.steps.foldl Path.advance place⟩ := by
  obtain ⟨absolute', steps⟩ := p
  rcases List.eq_nil_or_concat steps with rfl | ⟨front, s, rfl⟩
  · exact .same _
  · rw [List.concat_eq_append, bare_concat]
    simp only [List.foldl_append, List.foldl_cons, List.foldl_nil]
    cases s with
    | here => exact .same _
    | up => exact .same _
    | name s =>
      have h := bare_standsFor ⟨absolute, front.foldl Path.advance place ++ [.name s]⟩
      rwa [bare_concat] at h

/-! ## The import of a file -/

/-- The text of what follows the directory, without extension. -/
def restText (rest : Path) : String := withoutExtension (withSlashes rest.text)

theorem restText_eq (hplain : Plain rest) : restText rest = (bare rest).text := by
  rw [restText, withSlashes_text hplain, withoutExtension_text]

theorem bare_eq_nil {p : Path} {absolute : Bool} (h : bare p = ⟨absolute, []⟩) :
    p = ⟨absolute, []⟩ := by
  obtain ⟨absolute', steps⟩ := p
  rcases List.eq_nil_or_concat steps with rfl | ⟨front, s, rfl⟩
  · exact h
  · rw [List.concat_eq_append, bare_concat] at h
    have hsteps := (Path.mk.inj h).2
    simp at hsteps

/-- What follows the directory is read back without extension, and it is not
nothing. -/
theorem ofText_restText (hproper : rest.Proper) (hplain : Plain rest) (hkeeps : KeepsName rest)
    (hrest : rest ≠ ⟨false, []⟩) :
    Path.ofText (restText rest) = bare rest ∧ restText rest ≠ "" := by
  have hread : Path.ofText (restText rest) = bare rest := by
    rw [restText_eq hplain, Path.ofText_text (proper_bare hproper hkeeps)]
  refine ⟨hread, ?_⟩
  intro hempty
  rw [hempty] at hread
  exact hrest (bare_eq_nil hread.symm)

theorem Holds.ne_nil (h : a.Holds p name root rest)
    (hstrict : (Path.ofText root).normalize ≠ p) : rest ≠ ⟨false, []⟩ := by
  rintro rfl
  apply hstrict
  rcases stripPrefix?_eq_some h.strip with ⟨habs, -, hsteps⟩ | ⟨hne, hfront, hp⟩
  · have hp : p = ⟨p.absolute, p.steps⟩ := rfl
    rw [hp, hsteps, List.append_nil, ← habs]
  · rw [hfront, hp]

/-- The import of a file that a directory holds, as its own alias reads it. -/
theorem exists_derive_eq (hsorted : a.roots.Sorted) {path : String}
    (hholds : ∃ name root rest, a.Holds (a.localize (Path.ofText path)) name root rest)
    (hrest : ∀ name root rest, a.Holds (a.localize (Path.ofText path)) name root rest →
      restText rest ≠ "") :
    ∃ own rest, a.Deepest (a.localize (Path.ofText path)) own.name own.root rest ∧
      own.rest = restText rest ∧ a.Uses (a.derive path) own := by
  obtain ⟨name, root, rest, h⟩ := hholds
  obtain ⟨c, root', hc, hdeepest⟩ := exists_deepest hsorted h
  have hne : restText c.rest ≠ "" := hrest _ _ _ hdeepest.holds
  have hspecifier : a.derive path = c.name ++ "/" ++ restText c.rest := by
    have hb : (restText c.rest).isEmpty = false := by
      simpa using hne
    unfold derive
    rw [hc]
    show (if (restText c.rest).isEmpty then c.name else c.name ++ "/" ++ restText c.rest) = _
    rw [hb, if_neg Bool.false_ne_true]
  -- The text is named, so that no later step computes it.
  obtain ⟨text, htext⟩ : ∃ text, text = restText c.rest := ⟨_, rfl⟩
  rw [← htext] at hspecifier
  exact ⟨⟨c.name, root', text⟩, c.rest, hdeepest, htext, .of_eq hdeepest.holds.listed hspecifier⟩

/-- The import of what no directory holds is its path without extension. -/
theorem derive_of_not_holds (hsorted : a.roots.Sorted) {path : String}
    (h : ∀ name root rest, ¬ a.Holds (a.localize (Path.ofText path)) name root rest) :
    a.derive path = withoutExtension (withSlashes path) := by
  have hnone : a.containers (a.localize (Path.ofText path)) = [] := by
    rw [List.eq_nil_iff_forall_not_mem]
    intro c hc
    obtain ⟨root, hholds, -⟩ := (mem_containers_iff hsorted c).1 hc
    exact h _ _ _ hholds
  unfold derive
  rw [hnone]
  rfl

/-! ## Where the import leads -/

section Expand

variable {place : List Step} {m : Match} {t : String}

/-- Read with its own alias the import leads to the file, perhaps without
extension. -/
theorem ReachedFrom.standsFor {own : Match} (h : a.ReachedFrom p (Path.ofText own.root) rest place)
    (hread : Path.ofText own.rest = bare rest) : StandsFor (a.target own) (a.anchor p) := by
  unfold target
  rw [hread, h.behind (bare rest) rfl, h.file]
  exact standsFor_foldl true place rest

theorem exists_name_of_bare {p : Path} {front : List Step} {name : String}
    (h : (bare p).steps = front ++ [.name name]) :
    ∃ name', p.steps = front ++ [.name name'] ∧ withoutExtension name' = name := by
  obtain ⟨absolute, steps⟩ := p
  rcases List.eq_nil_or_concat steps with rfl | ⟨front', s, rfl⟩
  · rw [bare_nil] at h
    simp at h
  · rw [List.concat_eq_append, bare_concat] at h
    obtain ⟨hfront, hs⟩ := List.append_inj' h rfl
    obtain rfl : front' = front := hfront
    have hs : bareStep s = .name name := by simpa using hs
    cases s with
    | here => cases hs
    | up => cases hs
    | name name' =>
      exact ⟨name', List.concat_eq_append, Step.name.inj hs⟩

/-- What stands for the file, and ends with the same name as the import, is where
the import leads. -/
theorem ReachedFrom.eq_of_standsFor (h : a.ReachedFrom p (Path.ofText root) rest place) {front steps : List Step}
    {name : String} (hbare : (bare rest).steps = front ++ [.name name])
    (hstands : StandsFor ⟨true, steps ++ [.name name]⟩ (a.anchor p)) :
    Path.mk true (steps ++ [.name name]) =
      ⟨true, (bare rest).steps.foldl Path.advance place⟩ := by
  obtain ⟨name', hsteps, rfl⟩ := exists_name_of_bare hbare
  have hfile : a.anchor p = ⟨true, front.foldl Path.advance place ++ [.name name']⟩ := by
    rw [h.file, hsteps, List.foldl_append]
    rfl
  rw [hfile] at hstands
  rw [hbare, List.foldl_append, hstands.eq_bare]
  rfl

/-- The only file without a name is the root, which nothing else stands for. -/
theorem ReachedFrom.eq_of_standsFor_root (h : a.ReachedFrom p (Path.ofText root) rest place)
    (hrest : rest ≠ ⟨false, []⟩) (hbare : (bare rest).steps = []) {q : Path}
    (hstands : StandsFor q (a.anchor p)) :
    q = ⟨true, (bare rest).steps.foldl Path.advance place⟩ := by
  have hroot : rest = ⟨true, []⟩ := by
    have hnil : rest = ⟨rest.absolute, []⟩ := bare_eq_nil (by rw [← hbare]; rfl)
    cases habs : rest.absolute with
    | true => rw [hnil, habs]
    | false => exact absurd (by rw [hnil, habs]) hrest
  have hempty : place = [] :=
    ((Path.mk.inj (h.behind ⟨true, []⟩ (by rw [hroot]))).2).symm
  have hfile : a.anchor p = ⟨true, []⟩ := by
    rw [h.file, hroot, hempty]
    rfl
  rw [hfile] at hstands
  rw [hbare, hempty]
  generalize hp : Path.mk true [] = r at hstands
  cases hstands with
  | same => exact hp.symm
  | shortened absolute front name ext hext => simp at hp

/-- Where the import leads, seen from the directory in front of a cut. -/
theorem ReachedFrom.eq_of_cut (ha : (Path.ofText a.base).absolute = true)
    (h : a.ReachedFrom p (Path.ofText root) rest place) {back : String} {before after : List Step}
    (hcut : (bare rest).CutAt t back before after) (hafter : AllNames after) :
    Path.mk true ((bare rest).steps.foldl Path.advance place) =
      ⟨true, (a.anchor ((Path.ofText root).join (Path.ofText (t ++ "/")))).steps ++ after⟩ := by
  have hbare : bare rest = ⟨(bare rest).absolute, before ++ after⟩ := by
    rw [← hcut.steps]
  have hjoin : (Path.ofText root).join (bare rest) =
      ((Path.ofText root).join (Path.ofText (t ++ "/"))).join ⟨false, after⟩ := by
    rw [hcut.front, hbare]
    cases (bare rest).absolute <;> simp [Path.join]
  rw [← h.behind (bare rest) rfl, hjoin, anchor_join_names ha _ hafter]

/-- The import leads to the file exactly if the directory of the longer alias is
where the import goes on to. -/
theorem expand_iff (ha : (Path.ofText a.base).absolute = true) (hproper : rest.Proper)
    (hplain : Plain rest) (hkeeps : KeepsName rest) (hfalls : Falls rest)
    (hrest : rest ≠ ⟨false, []⟩) (h : a.ReachedFrom p (Path.ofText root) rest place)
    (ht : restText rest = t ++ "/" ++ m.rest) :
    StandsFor (a.target m) (a.anchor p) ↔
      a.anchor (Path.ofText m.root) =
        a.anchor ((Path.ofText root).join (Path.ofText (t ++ "/"))) := by
  rw [restText_eq hplain] at ht
  obtain ⟨before, after, hcut⟩ := (proper_bare hproper hkeeps).ofText_cut ht
  have hafter : AllNames after := hfalls.bare.allNames_after hcut
  have hm : a.target m = ⟨true, (a.anchor (Path.ofText m.root)).steps ++ after⟩ := by
    unfold target
    rw [hcut.back, anchor_join_names ha _ hafter]
  have hown := h.eq_of_cut ha hcut hafter
  -- Both imports end with the steps behind the cut, so only the directories can differ.
  constructor
  · intro hstands
    have heq : a.target m = ⟨true, (bare rest).steps.foldl Path.advance place⟩ := by
      rcases List.eq_nil_or_concat after with rfl | ⟨after, s, rfl⟩
      · have hnil : (bare rest).steps = [] := by
          by_contra hne
          exact hcut.after_ne_nil hne rfl
        exact h.eq_of_standsFor_root hrest hnil hstands
      · obtain ⟨name, rfl⟩ := hafter s (by simp)
        rw [List.concat_eq_append] at hcut hm
        rw [hm, ← List.append_assoc] at hstands ⊢
        exact h.eq_of_standsFor (by rw [hcut.steps, ← List.append_assoc]) hstands
    rw [hm, hown] at heq
    have habs : ∀ q, a.anchor q = ⟨true, (a.anchor q).steps⟩ := by
      intro q
      rw [← absolute_anchor ha q]
    rw [habs (Path.ofText m.root), List.append_cancel_right (Path.mk.inj heq).2, ← habs]
  · intro heq
    rw [hm, heq, ← hown, h.file]
    exact standsFor_foldl true place rest

end Expand

theorem name_of_fromBase {s : String} (h : .name s ∈ (a.fromBase p).steps) : .name s ∈ p.steps := by
  unfold fromBase at h
  split at h
  · cases hrest : (Path.ofText a.base).stripPrefix? p with
    | none =>
      rw [hrest] at h
      exact h
    | some rest =>
      rw [hrest] at h
      rcases stripPrefix?_eq_some hrest with ⟨-, -, hsteps⟩ | ⟨-, -, rfl⟩
      · rw [hsteps]
        exact List.mem_append_right _ h
      · exact h
  · exact h

/-- The import of a file that a directory holds begins with the alias of a deepest
one, and what follows leads from there to the file. Read with the longest alias,
the import leads to the file if that is the same alias. If it is a longer one,
the import leads to the file exactly if the longer one is a name for the
directory that the shorter one and the front of the rest lead to. -/
theorem derive_expands (hsorted : a.roots.Sorted) (ha : (Path.ofText a.base).absolute = true)
    {path : String} (hplain : '\\' ∉ path.toList)
    (hshallow : (a.fromBase (Path.ofText path)).Shallow)
    (hroots : ∀ name root rest, a.Holds (a.localize (Path.ofText path)) name root rest →
      (Path.ofText root).rise ≤ 1)
    (hkeeps : KeepsName (a.localize (Path.ofText path)))
    (hholds : ∃ name root rest, a.Holds (a.localize (Path.ofText path)) name root rest)
    (hstrict : ∀ name root, a.roots.get? name = some root →
      (Path.ofText root).normalize ≠ a.localize (Path.ofText path)) :
    ∃ own rest, a.Deepest (a.localize (Path.ofText path)) own.name own.root rest ∧
      a.derive path = own.name ++ "/" ++ own.rest ∧
      StandsFor (a.target own) (a.anchor (Path.ofText path)) ∧
      ∃ m, a.Longest (a.derive path) m ∧
        (m = own ∨ ∃ t, m.name = own.name ++ "/" ++ t ∧ own.rest = t ++ "/" ++ m.rest ∧
          (StandsFor (a.target m) (a.anchor (Path.ofText path)) ↔
            a.anchor (Path.ofText m.root) =
              a.anchor ((Path.ofText own.root).join (Path.ofText (t ++ "/"))))) := by
  have hlocal := localize_eq a (Path.ofText path)
  have hproper : (a.localize (Path.ofText path)).Proper := by
    rw [hlocal]
    exact Path.proper_normalize fun s hs => (Path.name_of_ofText (name_of_fromBase hs)).1
  have hplain' : Plain (a.localize (Path.ofText path)) := by
    rw [hlocal]
    exact fun s hs => plain_ofText hplain s (name_of_fromBase (Path.name_of_normalize hs))
  have hfalls : Falls (a.localize (Path.ofText path)) := by
    rw [hlocal]
    exact falls_normalize hshallow
  have hread : ∀ name root rest, a.Holds (a.localize (Path.ofText path)) name root rest →
      Path.ofText (restText rest) = bare rest ∧ restText rest ≠ "" := by
    intro name root rest h
    exact ofText_restText (h.proper hproper) (h.plain hplain') (h.keepsName hkeeps)
      (h.ne_nil (hstrict name root h.listed))
  obtain ⟨own, rest, hdeepest, hrest, huses⟩ :=
    exists_derive_eq hsorted hholds fun name root rest h => (hread name root rest h).2
  have hown := hdeepest.holds
  have hroot := hroots own.name own.root rest hown
  have hne := hown.ne_nil (hstrict own.name own.root hown.listed)
  obtain ⟨place, hplace⟩ := hown.exists_place ha hshallow hroot
  obtain ⟨m, hm⟩ := huses.exists_longest hsorted
  have hlongest := longest_of_match? hsorted hm
  refine ⟨own, rest, hdeepest, huses.specifier, ?_, m, hlongest, ?_⟩
  · apply hplace.standsFor
    rw [hrest]
    exact (hread own.name own.root rest hown).1
  · rcases huses.eq_or_extends hlongest.uses (hlongest.longest own huses) with
      hsame | ⟨t, hname, ht⟩
    · exact .inl hsame
    · refine .inr ⟨t, hname, ht, ?_⟩
      exact expand_iff ha (hown.proper hproper) (hown.plain hplain') (hown.keepsName hkeeps)
        (hown.falls hfalls) hne hplace (hrest.symm.trans ht)

/-- In the standard map the import of a file leads back to it. -/
theorem derive_expands_standard :
    ∃ m, (standard "/work/app").Longest ((standard "/work/app").derive "src/shared/dto.ts") m ∧
      StandsFor ((standard "/work/app").target m)
        ((standard "/work/app").anchor (Path.ofText "src/shared/dto.ts")) := by
  have hsorted : (standard "/work/app").roots.Sorted :=
    TextMap.sorted_insert TextMap.sorted_empty "@" _
  have hroot : ∀ name root, (standard "/work/app").roots.get? name = some root →
      name = "@" ∧ root = "src" := by
    intro name root h
    have hmem := (TextMap.mem_entries_iff hsorted name root).2 h
    rw [show (standard "/work/app").roots.entries = [("@", "src")] by decide +kernel] at hmem
    exact Prod.mk.inj (List.mem_singleton.1 hmem)
  have hlast : ((standard "/work/app").localize
      (Path.ofText "src/shared/dto.ts")).steps.getLast? = some (.name "dto.ts") := by
    decide +kernel
  obtain ⟨own, rest, hdeepest, -, hown, m, hm, hcase⟩ :=
    derive_expands hsorted (by decide) (show '\\' ∉ "src/shared/dto.ts".toList by decide)
      (by unfold Path.Shallow; decide +kernel)
      (by
        intro name root rest h
        obtain ⟨-, rfl⟩ := hroot name root h.listed
        decide +kernel)
      (keepsName_of_mem hlast (c := 'd') (by decide +kernel) (by decide))
      ⟨"@", "src", ⟨false, [.name "shared", .name "dto.ts"]⟩, by decide +kernel, by decide +kernel⟩
      (by
        intro name root h
        obtain ⟨-, rfl⟩ := hroot name root h
        decide +kernel)
  rcases hcase with rfl | ⟨t, hname, -⟩
  · exact ⟨m, hm, hown⟩
  · -- There is no longer alias.
    exfalso
    rw [(hroot _ _ hm.uses.root).1, (hroot _ _ hdeepest.holds.listed).1] at hname
    have hlength := congrArg String.length hname
    rw [String.length_append, String.length_append] at hlength
    have hone : "/".length = 1 := by decide
    omega

/-! ## Files whose import does not lead back -/

/-- That an import leads to a file, perhaps without extension. -/
def Expands (a : AliasMap) (specifier : String) (file : Path) : Prop :=
  ∃ m, a.Longest specifier m ∧ StandsFor (a.target m) file

theorem not_expands {specifier : String} {file : Path} (hsorted : a.roots.Sorted)
    (h : (a.match? specifier).all (fun m => !decide (StandsFor (a.target m) file)) = true) :
    ¬ a.Expands specifier file := by
  rintro ⟨m, hm, hstands⟩
  rw [(match?_eq_some_iff hsorted).2 hm, Option.all_some, Bool.not_eq_true',
    decide_eq_false_iff_not] at h
  exact h hstands

/-- Whether the directory of some alias lies strictly above a file. -/
def liesWithin (a : AliasMap) (file : Path) : Bool :=
  a.roots.entries.any fun (_, root) =>
    (a.anchor (Path.ofText root)).steps.isPrefixOf (a.anchor file).steps &&
      a.anchor (Path.ofText root) != a.anchor file

/-- That some directory of a map holds a file whose import does not lead back. -/
structure Strays (base : String) (entries : List (String × String)) (path : String) : Prop where
  absolute : (Path.ofText base).absolute = true
  within : ((new base).insertAll entries).liesWithin (Path.ofText path) = true
  lost : ¬ ((new base).insertAll entries).Expands (((new base).insertAll entries).derive path)
    (((new base).insertAll entries).anchor (Path.ofText path))

theorem Strays.of_match? {base : String} {entries : List (String × String)} {path : String}
    (habs : (Path.ofText base).absolute = true)
    (hwithin : ((new base).insertAll entries).liesWithin (Path.ofText path) = true)
    (hlost : (((new base).insertAll entries).match?
        (((new base).insertAll entries).derive path)).all (fun m =>
      !decide (StandsFor (((new base).insertAll entries).target m)
        (((new base).insertAll entries).anchor (Path.ofText path)))) = true) :
    Strays base entries path where
  absolute := habs
  within := hwithin
  lost := not_expands (sorted_insertAll TextMap.sorted_empty entries) hlost

/-- Files whose import does not lead back: a longer alias reads it, for another
directory; the file is the directory of an alias itself; its name is nothing but
an extension; the directory is written absolutely and the file is not; the file is
two directories up; its name has a backslash. -/
theorem derive_strays :
    Strays "/work/app" [("@", "src"), ("@/shared", "lib/shared")] "src/shared/dto.ts" ∧
      Strays "/work/app" [("@", "src"), ("~", "src/a")] "src/a" ∧
      Strays "/work/app" [("@", "src")] "src/.ts" ∧
      Strays "/work/app" [("@", "/work/app/src")] "src/a.ts" ∧
      Strays "/work/app" [("@", "src"), ("~", "../..")] "../../src/a.ts" ∧
      Strays "/work/app" [("@", "src")] "src/a\\b.ts" := by
  refine ⟨.of_match? ?_ ?_ ?_, .of_match? ?_ ?_ ?_, .of_match? ?_ ?_ ?_, .of_match? ?_ ?_ ?_,
    .of_match? ?_ ?_ ?_, .of_match? ?_ ?_ ?_⟩ <;> decide +kernel

end ClientRoutes.AliasMap
