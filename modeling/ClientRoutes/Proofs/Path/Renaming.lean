import ClientRoutes.Proofs.Path.Normalizing

/-
  Paths with other names.

  Where a path leads depends on its names only as far as they are kept: to give
  all names other texts and then to normalize is the same as the other way round.

  What is proved:
    1. `normalize_mapNames` — renaming before or after.
    2. `rise_mapNames`, `shallow_mapNames` — it keeps how often a path goes up.
    3. `stripPrefix?_mapNames` — and what follows a path that keeps its names.
-/

namespace ClientRoutes.Path

/-- A step with another text for a name. -/
def Step.mapName (f : String → String) : Step → Step
  | .name s => .name (f s)
  | s => s

/-- A path with other texts for its names. -/
def mapNames (f : String → String) (p : Path) : Path := ⟨p.absolute, p.steps.map (Step.mapName f)⟩

variable {f : String → String}

theorem advance_map (steps : List Step) (s : Step) :
    advance (steps.map (Step.mapName f)) (s.mapName f) = (advance steps s).map (Step.mapName f) := by
  cases s with
  | here => rfl
  | name t => simp [advance, Step.mapName]
  | up =>
    cases steps with
    | nil => rfl
    | cons x xs => exact (List.map_dropLast ..).symm

theorem foldl_advance_map (base steps : List Step) :
    (steps.map (Step.mapName f)).foldl advance (base.map (Step.mapName f)) =
      (steps.foldl advance base).map (Step.mapName f) := by
  induction steps generalizing base with
  | nil => rfl
  | cons s steps ih => rw [List.map_cons, List.foldl_cons, advance_map, ih, List.foldl_cons]

theorem normalize_mapNames (p : Path) : (p.mapNames f).normalize = p.normalize.mapNames f :=
  congrArg (Path.mk p.absolute) (foldl_advance_map [] p.steps)

/-! ## Going up -/

theorem Net.advance_map (n : Net) (s : Step) :
    Net.advance ⟨n.rise, n.names.map (Step.mapName f)⟩ (s.mapName f) =
      ⟨(n.advance s).rise, (n.advance s).names.map (Step.mapName f)⟩ := by
  obtain ⟨rise, names⟩ := n
  cases s with
  | here => rfl
  | name t => simp [Net.advance, Step.mapName]
  | up =>
    cases names with
    | nil => rfl
    | cons x xs => exact congrArg (Net.mk rise) (List.map_dropLast ..).symm

theorem rise_mapNames (p : Path) : (p.mapNames f).rise = p.rise := by
  have hfold : ∀ (steps : List Step) (n : Net),
      (steps.map (Step.mapName f)).foldl Net.advance ⟨n.rise, n.names.map (Step.mapName f)⟩ =
        ⟨(steps.foldl Net.advance n).rise,
          (steps.foldl Net.advance n).names.map (Step.mapName f)⟩ := by
    intro steps
    induction steps with
    | nil => exact fun n => rfl
    | cons s steps ih =>
      intro n
      rw [List.map_cons, List.foldl_cons, Net.advance_map, ih, List.foldl_cons]
  have hnet := hfold p.steps ⟨0, []⟩
  show ((p.steps.map (Step.mapName f)).foldl Net.advance ⟨0, []⟩).rise = p.rise
  rw [show Net.mk 0 [] = ⟨0, [].map (Step.mapName f)⟩ from rfl, hnet]
  rfl

theorem shallow_mapNames {p : Path} (h : p.Shallow) : (p.mapNames f).Shallow := by
  unfold Shallow
  rw [rise_mapNames]
  exact h

/-! ## What follows -/

/-- What follows a path that keeps its names. -/
theorem stripPrefix?_mapNames {front p rest : Path} (hfront : front.mapNames f = front)
    (h : front.stripPrefix? p = some rest) :
    front.stripPrefix? (p.mapNames f) = some (rest.mapNames f) := by
  unfold stripPrefix? at h ⊢
  by_cases habs : front.absolute = p.absolute
  · rw [if_pos habs] at h
    obtain ⟨steps, hsteps, rfl⟩ := Option.map_eq_some_iff.1 h
    have happend := List.isPrefixOf?_eq_some_iff_append_eq.1 hsteps
    have hkept : front.steps.map (Step.mapName f) = front.steps := congrArg Path.steps hfront
    have hmapped : front.steps.isPrefixOf? (p.mapNames f).steps =
        some (steps.map (Step.mapName f)) := by
      rw [List.isPrefixOf?_eq_some_iff_append_eq]
      calc front.steps ++ steps.map (Step.mapName f)
          = front.steps.map (Step.mapName f) ++ steps.map (Step.mapName f) := by rw [hkept]
        _ = p.steps.map (Step.mapName f) := by rw [← List.map_append, happend]
    rw [if_pos (show front.absolute = (p.mapNames f).absolute from habs), hmapped]
    rfl
  · rw [if_neg habs] at h
    rw [if_neg (show ¬ front.absolute = (p.mapNames f).absolute from habs)]
    split at h
    · next hempty => rw [if_pos hempty, ← Option.some.inj h]
    · cases h

end ClientRoutes.Path
