import ClientRoutes.Proofs.Path.Normalizing
import Mathlib.Data.List.Induction

/-
  Paths that go up above their start.

  Where nothing is left to take back, a step up is kept. The next one then takes
  it back like a name. So of the steps that lead above the start normalizing keeps
  none if their number is even, and one if it is odd, and from a directory the
  normalized path goes up less far than the path, unless that rises at most once.

  What is proved:
    1. `rise_of_up_not_mem` — without a step up a path does not rise.
    2. `net_append` — the net of steps that start behind some names.
    3. `ups_normalize`, `rise_normalize` — how many steps up normalizing keeps.
    4. `normalize_join_normalize_iff` — when a path leads, normalized, to the same
       place.
-/

namespace ClientRoutes.Path

/-! ## Steps behind some names -/

theorem net_concat (steps : List Step) (s : Step) : net (steps ++ [s]) = (net steps).advance s := by
  rw [net, List.foldl_append]
  rfl

theorem net_of_allNames {names : List Step} (h : AllNames names) : net names = ⟨0, names⟩ := by
  induction names using List.reverseRecOn with
  | nil => rfl
  | append_singleton names s ih =>
    obtain ⟨t, rfl⟩ := h s (by simp)
    rw [net_concat, ih (h.of_subset (List.subset_append_left _ _))]
    rfl

/-- Without a step up nothing is taken back. -/
theorem rise_of_up_not_mem {steps : List Step} (h : .up ∉ steps) : (net steps).rise = 0 := by
  induction steps using List.reverseRecOn with
  | nil => rfl
  | append_singleton steps s ih =>
    have hrest := ih fun hmem => h (List.mem_append_left _ hmem)
    rw [net_concat]
    cases s with
    | here => exact hrest
    | name t => exact hrest
    | up => exact absurd (List.mem_append_right _ List.mem_cons_self) h

theorem foldl_advance_of_up_not_mem {steps : List Step} (h : .up ∉ steps) (base : List Step) :
    steps.foldl advance base = base ++ (net steps).names := by
  rw [foldl_advance_net, Net.lead, rise_of_up_not_mem h]
  rfl

/-- Behind some names, steps rise above the start only as far as the names do not
reach, and take away as many names as they would rise without them. -/
theorem net_append {base : List Step} (hbase : AllNames base) (steps : List Step) :
    net (base ++ steps) = ⟨(net steps).rise - base.length,
      base.take (base.length - (net steps).rise) ++ (net steps).names⟩ := by
  induction steps using List.reverseRecOn with
  | nil =>
    rw [List.append_nil, net_of_allNames hbase]
    simp [net]
  | append_singleton steps s ih =>
    rw [← List.append_assoc, net_concat, net_concat, ih]
    generalize net steps = n
    obtain ⟨rise, names⟩ := n
    cases s with
    | here => rfl
    | name t => simp [Net.advance, List.append_assoc]
    | up =>
      by_cases hnil : names = []
      · subst hnil
        -- The step takes back a name of the base, if one is left.
        by_cases hle : base.length ≤ rise
        · have hzero : base.length - rise = 0 := by omega
          have hzero' : base.length - (rise + 1) = 0 := by omega
          simp only [Net.advance, hzero, hzero', List.take_zero, List.append_nil, List.isEmpty_nil,
            if_true, Net.mk.injEq, and_true]
          omega
        · have hne : (base.take (base.length - rise)).isEmpty = false := by
            rw [List.isEmpty_eq_false_iff, ← List.length_pos_iff, List.length_take]
            omega
          simp only [Net.advance, List.append_nil, hne, Bool.false_eq_true, if_false,
            List.isEmpty_nil, if_true, Net.mk.injEq]
          refine ⟨by omega, ?_⟩
          rw [List.dropLast_eq_take, List.take_take, List.length_take]
          congr 1
          omega
      · simp [Net.advance, hnil, List.dropLast_append_of_ne_nil]

/-! ## The steps up that are kept -/

/-- From nowhere, every second step up takes back the one before it. -/
theorem foldl_ups_nil (n : Nat) :
    (List.replicate n Step.up).foldl advance [] = List.replicate (n % 2) .up := by
  induction n with
  | zero => rfl
  | succ n ih =>
    rw [List.replicate_succ', List.foldl_append, ih]
    rcases Nat.mod_two_eq_zero_or_one n with h | h
    · rw [h, show (n + 1) % 2 = 1 by omega]
      rfl
    · rw [h, show (n + 1) % 2 = 0 by omega]
      rfl

theorem steps_normalize (p : Path) :
    p.normalize.steps = List.replicate (p.rise % 2) .up ++ (net p.steps).names := by
  show p.steps.foldl advance [] = _
  rw [foldl_advance_net, Net.lead, foldl_ups_nil]
  rfl

theorem ups_normalize (p : Path) : p.normalize.ups = p.rise % 2 := by
  have hnone : (net p.steps).names.filter (· = .up) = [] := by
    rw [List.filter_eq_nil_iff]
    intro s hs
    obtain ⟨t, rfl⟩ := allNames_net p.steps s hs
    simp
  rw [ups, steps_normalize, List.filter_append, hnone, List.append_nil, List.filter_replicate]
  simp

theorem net_ups_append (n : Nat) {names : List Step} (h : AllNames names) :
    net (List.replicate n .up ++ names) = ⟨n, names⟩ := by
  have hups : net (List.replicate n .up) = ⟨n, []⟩ := by
    induction n with
    | zero => rfl
    | succ n ih =>
      rw [List.replicate_succ', net_concat, ih]
      rfl
  induction names using List.reverseRecOn with
  | nil => rw [List.append_nil, hups]
  | append_singleton names s ih =>
    obtain ⟨t, rfl⟩ := h s (by simp)
    rw [← List.append_assoc, net_concat, ih (h.of_subset (List.subset_append_left _ _))]
    rfl

theorem rise_normalize (p : Path) : p.normalize.rise = p.rise % 2 := by
  rw [rise, steps_normalize, net_ups_append _ (allNames_net p.steps)]

/-! ## From a directory -/

/-- A path that does not lead above the root rises at most as often as the
directory has steps. -/
theorem rise_le_length {base p : Path} (hbase : AllNames base.steps) (hp : p.absolute = false)
    (hbelow : (base.join p).rise = 0) : p.rise ≤ base.steps.length := by
  have hjoin : base.join p = ⟨base.absolute, base.steps ++ p.steps⟩ := by
    simp [join, hp]
  rw [hjoin, rise, net_append hbase] at hbelow
  exact Nat.le_of_sub_eq_zero hbelow

/-- Where steps lead from a directory that they do not leave at its top. -/
theorem foldl_advance_take {base steps : List Step} (h : (net steps).rise ≤ base.length) :
    steps.foldl advance base =
      base.take (base.length - (net steps).rise) ++ (net steps).names := by
  rw [foldl_advance_net, Net.lead, foldl_ups h]

/-- A path leads, normalized, to the same place exactly if it rises at most once. -/
theorem normalize_join_normalize_iff {base p : Path} (hbase : AllNames base.steps)
    (hp : p.absolute = false) (hbelow : (base.join p).rise = 0) :
    (base.join p.normalize).normalize = (base.join p).normalize ↔ p.rise ≤ 1 := by
  have hrise : p.rise ≤ base.steps.length := rise_le_length hbase hp hbelow
  have hsteps : base.normalize.steps = base.steps :=
    foldl_advance_names base.steps [] hbase
  rw [normalize_join hp, normalize_join (p := p.normalize) hp, hsteps]
  constructor
  · intro h
    -- Both end with the names of the path, so they leave equally much of the directory.
    have hnormal : (net p.normalize.steps).rise = p.rise % 2 := rise_normalize p
    have hnames : (net p.normalize.steps).names = (net p.steps).names := by
      rw [steps_normalize, net_ups_append _ (allNames_net p.steps)]
    have hmod : p.rise % 2 ≤ p.rise := Nat.mod_le _ _
    have hlength := congrArg List.length (Path.mk.inj h).2
    rw [foldl_advance_take (show (net p.steps).rise ≤ _ from hrise),
      foldl_advance_take (by rw [hnormal]; omega), hnormal, hnames, List.length_append,
      List.length_append, List.length_take, List.length_take] at hlength
    have hnet : (net p.steps).rise = p.rise := rfl
    omega
  · intro h
    rw [foldl_normalize h]

end ClientRoutes.Path
