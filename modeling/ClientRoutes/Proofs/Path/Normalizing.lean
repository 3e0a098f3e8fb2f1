import ClientRoutes.Proofs.Path.Reading

/-
  Where the steps of a path lead.

  Some steps first go up a number of times, above the place where they start, and
  then down along names: everything else is taken back. This net of the steps
  says where they lead from any place. Normalizing keeps the names and, of the
  steps up, at most one, so it keeps where a path leads if it goes up at most
  once.

  What is proved:
    1. `foldl_advance_net` — steps lead where their net leads, from any place.
    2. `foldl_ups` — going up takes steps away at the end.
    3. `steps_normalize_of_rise` — a path that never rises above its start is
       normalized to names.
    4. `foldl_normalize` — a path that rises at most once leads, normalized, to
       the same place.
    5. `proper_normalize` — a path that was read is proper when it is normalized.
    6. `settled_normalize`, `Settled.foldl_advance` — normalized steps lead from
       nowhere to themselves.
-/

namespace ClientRoutes.Path

/-! ## The net of some steps -/

/-- What is left of some steps: how often they go up above their start, and the
names that follow. -/
structure Net where
  rise : Nat
  names : List Step

namespace Net

/-- One more step. -/
def advance (n : Net) : Step → Net
  | .here => n
  | .up => if n.names.isEmpty then ⟨n.rise + 1, []⟩ else ⟨n.rise, n.names.dropLast⟩
  | .name s => ⟨n.rise, n.names ++ [.name s]⟩

/-- Where it leads from a place. -/
def lead (n : Net) (base : List Step) : List Step :=
  (List.replicate n.rise .up).foldl Path.advance base ++ n.names

theorem advance_lead (n : Net) (base : List Step) (s : Step) :
    Path.advance (n.lead base) s = (n.advance s).lead base := by
  obtain ⟨rise, names⟩ := n
  cases s with
  | here => rfl
  | name s => simp [Path.advance, advance, lead]
  | up =>
    -- Without a name to take back, the net rises once more.
    by_cases hnil : names = []
    · subst hnil
      simp [advance, lead, List.replicate_succ', List.foldl_append]
    · simp [Path.advance, advance, lead, hnil, List.dropLast_append_of_ne_nil]

theorem foldl_lead (n : Net) (base steps : List Step) :
    steps.foldl Path.advance (n.lead base) = (steps.foldl advance n).lead base := by
  induction steps generalizing n with
  | nil => rfl
  | cons s rest ih => rw [List.foldl_cons, List.foldl_cons, advance_lead, ih]

theorem mem_names_advance {n : Net} {s x : Step} (h : x ∈ (n.advance s).names) :
    x ∈ n.names ∨ x = s ∧ ∃ t, x = .name t := by
  cases s with
  | here => exact .inl h
  | name t =>
    rcases List.mem_append.1 h with h | h
    · exact .inl h
    · obtain rfl := List.mem_singleton.1 h
      exact .inr ⟨rfl, t, rfl⟩
  | up =>
    rw [advance] at h
    split at h
    · cases h
    · exact .inl ((List.dropLast_sublist _).subset h)

theorem mem_names_foldl {n : Net} {steps : List Step} {x : Step}
    (h : x ∈ (steps.foldl advance n).names) : x ∈ n.names ∨ x ∈ steps ∧ ∃ t, x = .name t := by
  induction steps generalizing n with
  | nil => exact .inl h
  | cons s rest ih =>
    rcases ih h with h | ⟨h, ht⟩
    · rcases mem_names_advance h with h | ⟨rfl, ht⟩
      · exact .inl h
      · exact .inr ⟨List.mem_cons_self, ht⟩
    · exact .inr ⟨List.mem_cons_of_mem _ h, ht⟩

end Net

/-- The net of some steps. -/
def net (steps : List Step) : Net := steps.foldl Net.advance ⟨0, []⟩

/-- How often a path goes up above its start. -/
def rise (p : Path) : Nat := (net p.steps).rise

theorem mem_net {steps : List Step} {x : Step} (h : x ∈ (net steps).names) :
    x ∈ steps ∧ ∃ t, x = .name t := by
  rcases Net.mem_names_foldl h with h | h
  · cases h
  · exact h

/-- Steps lead where their net leads, from any place. -/
theorem foldl_advance_net (base steps : List Step) :
    steps.foldl advance base = (net steps).lead base := by
  have hempty : base = (⟨0, []⟩ : Net).lead base := by simp [Net.lead]
  calc steps.foldl advance base = steps.foldl advance ((⟨0, []⟩ : Net).lead base) := by
        rw [← hempty]
    _ = (net steps).lead base := Net.foldl_lead _ _ _

/-- Going up takes steps away at the end, while there are some. -/
theorem foldl_ups {base : List Step} {n : Nat} (h : n ≤ base.length) :
    (List.replicate n Step.up).foldl advance base = base.take (base.length - n) := by
  induction n generalizing base with
  | zero => simp
  | succ n ih =>
    have hne : base ≠ [] := by
      rintro rfl
      simp at h
    have hup : advance base .up = base.dropLast := by simp [advance, hne]
    rw [List.replicate_succ, List.foldl_cons, hup, ih (by rw [List.length_dropLast]; omega),
      List.dropLast_eq_take, List.take_take, List.length_take]
    congr 1
    omega

/-! ## Normalizing -/

theorem mem_foldl_advance {base steps : List Step} {x : Step} (h : x ∈ steps.foldl advance base) :
    x ∈ base ∨ x = .up ∨ x ∈ steps ∧ ∃ t, x = .name t := by
  induction steps generalizing base with
  | nil => exact .inl h
  | cons s rest ih =>
    rcases ih h with h | h | ⟨h, ht⟩
    · cases s with
      | here => exact .inl h
      | up =>
        rw [advance] at h
        split at h
        · exact .inr (.inl (List.mem_singleton.1 h))
        · exact .inl ((List.dropLast_sublist _).subset h)
      | name t =>
        rcases List.mem_append.1 h with h | h
        · exact .inl h
        · obtain rfl := List.mem_singleton.1 h
          exact .inr (.inr ⟨List.mem_cons_self, t, rfl⟩)
    · exact .inr (.inl h)
    · exact .inr (.inr ⟨List.mem_cons_of_mem _ h, ht⟩)

theorem name_of_normalize {p : Path} {s : String} (h : .name s ∈ p.normalize.steps) :
    .name s ∈ p.steps := by
  rcases mem_foldl_advance h with h | h | ⟨h, -⟩
  · cases h
  · cases h
  · exact h

theorem name_of_join {base p : Path} {s : String} (h : .name s ∈ (base.join p).steps) :
    .name s ∈ base.steps ∨ .name s ∈ p.steps := by
  unfold join at h
  split at h
  · exact .inr h
  · exact List.mem_append.1 h

theorem properName_of_join {base p : Path} (hbase : ∀ s, .name s ∈ base.steps → ProperName s)
    (hp : ∀ s, .name s ∈ p.steps → ProperName s) :
    ∀ s, .name s ∈ (base.join p).steps → ProperName s := by
  intro s hs
  rcases name_of_join hs with hs | hs
  · exact hbase s hs
  · exact hp s hs

/-- A path is proper when it is normalized, if its names are. -/
theorem proper_normalize {p : Path} (h : ∀ s, .name s ∈ p.steps → ProperName s) :
    p.normalize.Proper := by
  intro x hx
  rcases mem_foldl_advance hx with hx | rfl | ⟨hx, t, rfl⟩
  · cases hx
  · trivial
  · exact h t hx

/-- Whether all of some steps are names. -/
def AllNames (steps : List Step) : Prop := ∀ s ∈ steps, ∃ t, s = .name t

theorem AllNames.append {xs ys : List Step} (hx : AllNames xs) (hy : AllNames ys) :
    AllNames (xs ++ ys) := by
  intro s hs
  rcases List.mem_append.1 hs with hs | hs
  · exact hx s hs
  · exact hy s hs

theorem AllNames.of_subset {xs ys : List Step} (hy : AllNames ys) (h : xs ⊆ ys) : AllNames xs :=
  fun s hs => hy s (h hs)

theorem allNames_net (steps : List Step) : AllNames (net steps).names :=
  fun _ hs => (mem_net hs).2

/-- A path that never rises above its start is normalized to names. -/
theorem steps_normalize_of_rise {p : Path} (h : p.rise = 0) : AllNames p.normalize.steps := by
  have hsteps : p.normalize.steps = (net p.steps).names := by
    show p.steps.foldl advance [] = _
    rw [foldl_advance_net, Net.lead, show (net p.steps).rise = 0 from h]
    rfl
  rw [hsteps]
  exact allNames_net _

/-- A path that rises once is normalized to one step up and names. -/
theorem steps_normalize_of_rise_one {p : Path} (h : p.rise = 1) :
    p.normalize.steps = .up :: (net p.steps).names := by
  show p.steps.foldl advance [] = _
  rw [foldl_advance_net, Net.lead, show (net p.steps).rise = 1 from h]
  rfl

/-- A path that rises at most once leads, normalized, to the same place. -/
theorem foldl_normalize {p : Path} (h : p.rise ≤ 1) (base : List Step) :
    p.normalize.steps.foldl advance base = p.steps.foldl advance base := by
  have hnames := allNames_net p.steps
  have hsteps : p.normalize.steps =
      (List.replicate p.rise Step.up).foldl advance [] ++ (net p.steps).names :=
    foldl_advance_net [] p.steps
  have hups : ((List.replicate p.rise Step.up).foldl advance []).foldl advance base =
      (List.replicate p.rise Step.up).foldl advance base := by
    -- A single step up is kept; of two, normalizing would drop both.
    rcases Nat.le_one_iff_eq_zero_or_eq_one.1 h with h | h <;> rw [h] <;> rfl
  calc p.normalize.steps.foldl advance base
      = (net p.steps).names.foldl advance
          ((List.replicate p.rise Step.up).foldl advance base) := by
        rw [hsteps, List.foldl_append, hups]
    _ = (List.replicate p.rise Step.up).foldl advance base ++ (net p.steps).names :=
        foldl_advance_names _ _ hnames
    _ = p.steps.foldl advance base := (foldl_advance_net base p.steps).symm

/-- A path that goes up at most once, and from the root never. -/
def Shallow (p : Path) : Prop := p.rise ≤ if p.absolute then 0 else 1

theorem Shallow.rise_le_one {p : Path} (h : p.Shallow) : p.rise ≤ 1 := by
  unfold Shallow at h
  split at h <;> omega

theorem Shallow.allNames {p : Path} (h : p.Shallow) (habs : p.absolute = true) :
    AllNames p.normalize.steps := by
  apply steps_normalize_of_rise
  unfold Shallow at h
  rw [if_pos habs] at h
  omega

/-- Behind the first step of a normalized shallow path there are only names. -/
theorem Shallow.allNames_tail {p : Path} (h : p.Shallow) : AllNames p.normalize.steps.tail := by
  rcases Nat.le_one_iff_eq_zero_or_eq_one.1 h.rise_le_one with hrise | hrise
  · exact (steps_normalize_of_rise hrise).of_subset (List.tail_sublist _).subset
  · rw [steps_normalize_of_rise_one hrise]
    exact allNames_net _

theorem normalize_join {base p : Path} (h : p.absolute = false) :
    (base.join p).normalize = ⟨base.absolute, p.steps.foldl advance base.normalize.steps⟩ := by
  simp [join, normalize, h, List.foldl_append]

theorem normalize_join_of_absolute {base p : Path} (h : p.absolute = true) :
    (base.join p).normalize = p.normalize := by
  simp [join, h]

/-! ## Settled steps -/

/-- Steps that normalizing leaves as they are: none stays in place, and only the
first one can go up. -/
structure Settled (steps : List Step) : Prop where
  here_not_mem : .here ∉ steps
  tail : AllNames steps.tail

theorem Settled.of_front {xs ys : List Step} (hy : Settled ys) (h : xs <+: ys) : Settled xs where
  here_not_mem := fun hmem => hy.here_not_mem (h.subset hmem)
  tail := by
    obtain ⟨zs, rfl⟩ := h
    cases xs with
    | nil => simp [AllNames]
    | cons x xs => exact hy.tail.of_subset (List.subset_append_left xs zs)

theorem Settled.advance {steps : List Step} (h : Settled steps) (s : Step) :
    Settled (Path.advance steps s) := by
  cases s with
  | here => exact h
  | up =>
    rw [Path.advance]
    split
    · exact ⟨by simp, by simp [AllNames]⟩
    · exact h.of_front (List.dropLast_prefix steps)
  | name t =>
    refine ⟨?_, ?_⟩
    · intro hmem
      rcases List.mem_append.1 hmem with hmem | hmem
      · exact h.here_not_mem hmem
      · cases List.mem_singleton.1 hmem
    · rw [Path.advance]
      cases steps with
      | nil => simp [AllNames]
      | cons x xs => exact h.tail.append fun y hy => ⟨t, List.mem_singleton.1 hy⟩

theorem settled_foldl_advance {base : List Step} (h : Settled base) (steps : List Step) :
    Settled (steps.foldl advance base) := by
  induction steps generalizing base with
  | nil => exact h
  | cons s steps ih => exact ih (h.advance s)

theorem settled_normalize (p : Path) : Settled p.normalize.steps :=
  settled_foldl_advance ⟨List.not_mem_nil, by simp [AllNames]⟩ p.steps

/-- Settled steps lead from nowhere to themselves. -/
theorem Settled.foldl_advance {steps : List Step} (h : Settled steps) :
    steps.foldl Path.advance [] = steps := by
  cases steps with
  | nil => rfl
  | cons s steps =>
    have hfirst : Path.advance [] s = [s] := by
      cases s with
      | here => exact absurd List.mem_cons_self h.here_not_mem
      | up => rfl
      | name t => rfl
    rw [List.foldl_cons, hfirst, foldl_advance_names steps [s] h.tail]
    rfl

end ClientRoutes.Path
