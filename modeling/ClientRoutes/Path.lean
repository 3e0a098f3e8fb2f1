import ClientRoutes.Text.Edit

/-
  Paths of files.

  A path is read as a list of steps: names, `..`, and a `.` that stands at the
  front of a relative path. Slashes that repeat, a slash at the end, and every
  other `.` say nothing. `normalize` removes `.` and lets every `..` take back
  the step before it; where there is none it stays, and a later `..` takes it
  back like a name.

  What is proved:
    1. `foldl_advance_names` — names are steps that are never taken back.
-/

namespace ClientRoutes

/-- One step of a path. -/
inductive Path.Step where
  | here
  | up
  | name (text : String)
  deriving DecidableEq, Repr

/-- A path, from the root or from somewhere. -/
structure Path where
  absolute : Bool
  steps : List Path.Step
  deriving DecidableEq, Repr

namespace Path

/-- The text of a step. -/
def Step.text : Step → String
  | .here => "."
  | .up => ".."
  | .name s => s

/-- The step that a part of a path is, if it is one. Only at the front of a
relative path a `.` is one. -/
def Step.ofPart? (front : Bool) (part : List Char) : Option Step :=
  match part with
  | [] => none
  | ['.'] => if front then some .here else none
  | ['.', '.'] => some .up
  | _ => some (.name (String.ofList part))

/-- The steps of a path, given its parts between slashes. -/
def stepsOf (parts : List (List Char)) : List Step :=
  match parts with
  | [] => []
  | first :: rest => (Step.ofPart? true first).toList ++ rest.filterMap (Step.ofPart? false)

/-- The path that a text writes. -/
def ofText (s : String) : Path where
  absolute := s.toList.head? == some '/'
  steps := stepsOf (Text.split '/' s.toList)

/-- The text of a path. -/
def text (p : Path) : String :=
  (if p.absolute then "/" else "") ++ "/".intercalate (p.steps.map Step.text)

/-- A path seen from another one. -/
def join (base p : Path) : Path :=
  if p.absolute then p else ⟨base.absolute, base.steps ++ p.steps⟩

/-- Takes one step from where some steps lead. -/
def advance (steps : List Step) : Step → List Step
  | .here => steps
  | .up => if steps.isEmpty then [.up] else steps.dropLast
  | .name s => steps ++ [.name s]

/-- The path without `.`, and with every `..` taking back the step before it. -/
def normalize (p : Path) : Path := ⟨p.absolute, p.steps.foldl advance []⟩

/-- The directory that holds the last step; a path without steps holds itself. -/
def parent (p : Path) : Path := ⟨p.absolute, p.steps.dropLast⟩

/-- What follows a path in another one that begins with it. Every path begins
with the one that leads nowhere. -/
def stripPrefix? (root p : Path) : Option Path :=
  if root.absolute = p.absolute then (root.steps.isPrefixOf? p.steps).map (⟨false, ·⟩)
  else if root = ⟨false, []⟩ then some p
  else none

/-- The number of steps of a path, where beginning at the root is one more. -/
def depth (p : Path) : Nat := p.steps.length + (if p.absolute then 1 else 0)

/-- The number of steps that go up. -/
def ups (p : Path) : Nat := (p.steps.filter (· = .up)).length

/-- The steps that lead from one place to another, both from one start, when
nothing was in common before. Going back over a `..` is impossible. -/
def detour : List Step → List Step → Option (List Step)
  | target, [] => some target
  | target, .here :: base =>
    match target with
    | [] => (detour [] base).map (.up :: ·)
    | step :: target => (detour target base).map (step :: ·)
  | [], .up :: base => (detour [] base).map (.up :: ·)
  | _ :: _, .up :: _ => none
  | target, .name _ :: base =>
    some (.up :: base.map (fun _ => .up) ++ target)

/-- The steps that lead from one place to another, both from one start. -/
def between : List Step → List Step → Option (List Step)
  | step :: target, step' :: base =>
    if step = step' then between target base else detour (step :: target) (step' :: base)
  | target, base => detour target base

/-- The path that leads from `base` to `target`. -/
def relativeTo? (base target : Path) : Option Path :=
  if target.absolute = base.absolute then
    (between target.steps base.steps).map (⟨false, ·⟩)
  else if target.absolute then some target
  else none

theorem foldl_advance_names (steps base : List Step) (h : ∀ s ∈ steps, ∃ t, s = .name t) :
    steps.foldl advance base = base ++ steps := by
  induction steps generalizing base with
  | nil => simp
  | cons s steps ih =>
    obtain ⟨t, rfl⟩ := h s (by simp)
    rw [List.foldl_cons, ih _ fun x hx => h x (by simp [hx])]
    simp [advance]

end Path

end ClientRoutes
