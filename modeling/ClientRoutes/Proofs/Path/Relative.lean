import ClientRoutes.Proofs.Path.Normalizing

/-
  The path from one place to another.

  Between two places that are both given by names, the path goes up from the
  first one to the last directory that both have in common, and then down.

  What is proved:
    1. `le_common_iff` — what two lists of steps have in common at their front.
    2. `between_names` — the steps between two places.
    3. `foldl_between` — they lead from the first place to the second.
    4. `between_eq_some`, `foldl_between_of_settled` — the same for places that may
       lie above the root, if there are such steps.
-/

namespace ClientRoutes.Path

/-- How many steps two lists of steps have in common at their front. -/
def common : List Step → List Step → Nat
  | x :: xs, y :: ys => if x = y then common xs ys + 1 else 0
  | _, _ => 0

/-- It is the greatest length at which both have the same front. -/
theorem le_common_iff (n : Nat) (xs ys : List Step) :
    n ≤ common xs ys ↔ n ≤ xs.length ∧ n ≤ ys.length ∧ xs.take n = ys.take n := by
  induction xs generalizing n ys with
  | nil =>
    rw [common]
    constructor
    · intro h
      obtain rfl := Nat.le_zero.1 h
      simp
    · rintro ⟨h, -, -⟩
      exact h
    · simp
  | cons x xs ih =>
    cases ys with
    | nil =>
      rw [common]
      constructor
      · intro h
        obtain rfl := Nat.le_zero.1 h
        simp
      · rintro ⟨-, h, -⟩
        exact h
      · simp
    | cons y ys =>
      rw [common]
      cases n with
      | zero => simp
      | succ n =>
        by_cases hxy : x = y
        · subst hxy
          rw [if_pos rfl, Nat.add_le_add_iff_right, ih]
          simp
        · simp [hxy]

theorem common_le_right (xs ys : List Step) : common xs ys ≤ ys.length :=
  ((le_common_iff _ xs ys).1 (Nat.le_refl _)).2.1

theorem take_common (xs ys : List Step) :
    xs.take (common xs ys) = ys.take (common xs ys) :=
  ((le_common_iff _ xs ys).1 (Nat.le_refl _)).2.2

/-- What stands in front of both is common to both. -/
theorem common_append (front xs ys : List Step) :
    common (front ++ xs) (front ++ ys) = front.length + common xs ys := by
  induction front with
  | nil => simp
  | cons s front ih =>
    rw [List.cons_append, List.cons_append, common, if_pos rfl, ih, List.length_cons]
    omega

theorem detour_names {target base : List Step} (h : AllNames base) :
    detour target base = some (List.replicate base.length .up ++ target) := by
  cases base with
  | nil => cases target <;> rfl
  | cons s rest =>
    obtain ⟨t, rfl⟩ := h s List.mem_cons_self
    cases target <;> simp [detour, List.replicate_succ, List.map_const']

/-- The steps between two places: up from the first to what they have in common,
and then down to the second. -/
theorem between_names {target base : List Step} (h : AllNames base) :
    between target base = some (List.replicate (base.length - common target base) .up ++
      target.drop (common target base)) := by
  induction target generalizing base with
  | nil => cases base <;> simp [between, common, detour_names h]
  | cons s target ih =>
    cases base with
    | nil => simp [between, common, detour_names h]
    | cons s' base =>
      rw [between, common]
      by_cases hs : s = s'
      · rw [if_pos hs, if_pos hs, ih (h.of_subset (List.subset_cons_self _ _))]
        simp
      · rw [if_neg hs, if_neg hs, detour_names h]
        simp

/-- Going up ends at what both have in common. -/
theorem foldl_ups_common (target base : List Step) :
    (List.replicate (base.length - common target base) Step.up).foldl advance base =
      target.take (common target base) := by
  have hle := common_le_right target base
  rw [foldl_ups (Nat.sub_le _ _), take_common]
  congr 1
  omega

/-- From the first place they lead to the second, also when another name stands
at the end of what goes down. -/
theorem foldl_between {target base after : List Step} (hbase : AllNames base)
    (hafter : AllNames after) :
    (List.replicate (base.length - common target base) Step.up ++ after).foldl advance
        (base.foldl advance []) =
      target.take (common target base) ++ after := by
  rw [foldl_advance_names base [] hbase, List.nil_append, List.foldl_append, foldl_ups_common,
    foldl_advance_names after _ hafter]

/-- They go up as often as the first place has steps beyond what is in common. -/
theorem filter_up_between {n : Nat} {after : List Step} (h : AllNames after) :
    ((List.replicate n Step.up ++ after).filter (· = .up)).length = n := by
  have hnone : after.filter (· = .up) = [] := by
    rw [List.filter_eq_nil_iff]
    intro s hs
    obtain ⟨t, rfl⟩ := h s hs
    simp
  rw [List.filter_append, hnone, List.append_nil, List.filter_replicate]
  simp

/-! ## Above the root -/

theorem detour_eq_some {target base steps : List Step} (hbase : .here ∉ base)
    (h : detour target base = some steps) :
    steps = List.replicate base.length .up ++ target := by
  induction base generalizing target steps with
  | nil =>
    rw [show detour target [] = some target by cases target <;> rfl] at h
    exact (Option.some.inj h).symm
  | cons s base ih =>
    have hrest : .here ∉ base := fun hmem => hbase (List.mem_cons_of_mem s hmem)
    cases s with
    | here => exact absurd List.mem_cons_self hbase
    | up =>
      -- Nothing leads down behind a step up, so there is nothing to lead to.
      cases target with
      | nil =>
        obtain ⟨steps', hsteps', rfl⟩ := Option.map_eq_some_iff.1 h
        rw [ih hrest hsteps']
        rfl
      | cons x target => cases h
    | name t =>
      cases target with
      | nil =>
        rw [← Option.some.inj h]
        simp [List.replicate_succ, List.map_const']
      | cons x target =>
        rw [← Option.some.inj h]
        simp [List.replicate_succ, List.map_const']

/-- If there are steps between two places, they go up to what both have in common,
and then down to the second. -/
theorem between_eq_some {target base steps : List Step} (hbase : .here ∉ base)
    (h : between target base = some steps) :
    steps = List.replicate (base.length - common target base) .up ++
      target.drop (common target base) := by
  induction target generalizing base with
  | nil =>
    rw [show between [] base = detour [] base by cases base <;> rfl] at h
    rw [show common [] base = 0 by cases base <;> rfl]
    exact detour_eq_some hbase h
  | cons s target ih =>
    cases base with
    | nil => exact detour_eq_some hbase h
    | cons s' base =>
      rw [between] at h
      rw [common]
      by_cases hs : s = s'
      · rw [if_pos hs] at h
        rw [if_pos hs, List.length_cons, Nat.add_sub_add_right, List.drop_succ_cons]
        exact ih (fun hmem => hbase (List.mem_cons_of_mem s' hmem)) h
      · rw [if_neg hs] at h
        rw [if_neg hs]
        exact detour_eq_some hbase h

/-- From a settled place they lead to the other one. -/
theorem foldl_between_of_settled {target base : List Step} (htarget : Settled target)
    (hbase : Settled base) :
    (List.replicate (base.length - common target base) Step.up ++
        target.drop (common target base)).foldl advance (base.foldl advance []) = target := by
  -- What both have in common is settled too, so what goes down can start from there.
  have hfront := (htarget.of_front (List.take_prefix (common target base) target)).foldl_advance
  calc (List.replicate (base.length - common target base) Step.up ++
          target.drop (common target base)).foldl advance (base.foldl advance [])
      = (target.drop (common target base)).foldl advance (target.take (common target base)) := by
        rw [hbase.foldl_advance, List.foldl_append, foldl_ups_common]
    _ = (target.take (common target base) ++ target.drop (common target base)).foldl advance [] := by
        rw [List.foldl_append, hfront]
    _ = target := by rw [List.take_append_drop, htarget.foldl_advance]

end ClientRoutes.Path
