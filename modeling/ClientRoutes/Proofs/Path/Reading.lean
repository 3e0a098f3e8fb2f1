import ClientRoutes.Path
import ClientRoutes.Proofs.Text.Edit

/-
  Reading a path back from its text.

  The parts of a text between slashes decide which path it writes. A path whose
  steps are `..` and proper names has one text, and the parts of that text are
  the texts of its steps. A path that was read has only proper names, made of
  characters of the text.

  What is proved:
    1. `name_of_ofText` — the names of a path that was read.
    2. `ofText_text`, `ofText_here_text` — a proper path is read back, also with
       `./` in front of it.
    3. `ofText_cut` — a text that is cut at a slash is a path cut between two
       steps.
-/

namespace ClientRoutes.Path

/-! ## Proper names -/

/-- A text that can be the name of a step. -/
def ProperName (s : String) : Prop := s ≠ "" ∧ s ≠ "." ∧ s ≠ ".." ∧ '/' ∉ s.toList

/-- A step that is `..` or has a proper name. -/
def Step.Proper : Step → Prop
  | .here => False
  | .up => True
  | .name s => ProperName s

/-- A path without `.` whose names are proper. -/
def Proper (p : Path) : Prop := ∀ s ∈ p.steps, s.Proper

theorem ofPart?_of_ne_dot {part : List Char} (h : part ≠ ['.']) (front : Bool) :
    Step.ofPart? front part = Step.ofPart? false part := by
  unfold Step.ofPart?
  split
  · rfl
  · exact absurd rfl h
  · rfl
  · rfl

/-- Every other part is a name. -/
theorem ofPart?_of_ne {part : List Char} (hnil : part ≠ []) (hdot : part ≠ ['.'])
    (hup : part ≠ ['.', '.']) (front : Bool) :
    Step.ofPart? front part = some (.name (String.ofList part)) := by
  unfold Step.ofPart?
  split
  · exact absurd rfl hnil
  · exact absurd rfl hdot
  · exact absurd rfl hup
  · rfl

theorem ofPart?_name {front : Bool} {part : List Char} {s : String}
    (h : Step.ofPart? front part = some (.name s)) (hslash : '/' ∉ part) :
    s.toList = part ∧ ProperName s := by
  unfold Step.ofPart? at h
  split at h
  · cases h
  · split at h <;> cases h
  · cases h
  · next hnil hdot hdots =>
    obtain rfl := Step.name.inj (Option.some.inj h)
    refine ⟨String.toList_ofList, ?_, ?_, ?_, ?_⟩
    · intro he
      exact hnil (by simpa using congrArg String.toList he)
    · intro he
      exact hdot (by simpa using congrArg String.toList he)
    · intro he
      exact hdots (by simpa using congrArg String.toList he)
    · rwa [String.toList_ofList]

/-- The characters of a step. -/
def Step.part (s : Step) : List Char := s.text.toList

theorem Step.Proper.part_ne_nil {s : Step} (h : s.Proper) : s.part ≠ [] := by
  cases s with
  | here => cases h
  | up => simp [part, Step.text]
  | name s =>
    intro he
    exact h.1 (String.toList_injective (by simpa [part, Step.text] using he))

theorem Step.Proper.part_ne_dot {s : Step} (h : s.Proper) : s.part ≠ ['.'] := by
  cases s with
  | here => cases h
  | up => simp [part, Step.text]
  | name s =>
    intro he
    exact h.2.1 (String.toList_injective (by simpa [part, Step.text] using he))

theorem Step.Proper.slash_not_mem {s : Step} (h : s.Proper) : '/' ∉ s.part := by
  cases s with
  | here => cases h
  | up => simp [part, Step.text]
  | name s => exact h.2.2.2

theorem Step.Proper.ofPart?_part {s : Step} (h : s.Proper) : Step.ofPart? false s.part = some s := by
  cases s with
  | here => cases h
  | up => rfl
  | name s =>
    obtain ⟨hnil, hdot, hdots, -⟩ := h
    simp only [part, Step.text]
    unfold Step.ofPart?
    split
    · next he => exact absurd (String.toList_injective (by simpa using he)) hnil
    · next he => exact absurd (String.toList_injective (by simpa using he)) hdot
    · next he => exact absurd (String.toList_injective (by simpa using he)) hdots
    · simp

theorem filterMap_parts {steps : List Step} (h : ∀ s ∈ steps, s.Proper) :
    (steps.map Step.part).filterMap (Step.ofPart? false) = steps := by
  induction steps with
  | nil => rfl
  | cons s rest ih =>
    rw [List.map_cons, List.filterMap_cons_some (h s List.mem_cons_self).ofPart?_part,
      ih fun x hx => h x (List.mem_cons_of_mem _ hx)]

/-! ## What is read -/

theorem stepsOf_eq_filterMap {parts : List (List Char)} (h : parts.head? ≠ some ['.']) :
    stepsOf parts = parts.filterMap (Step.ofPart? false) := by
  cases parts with
  | nil => rfl
  | cons first rest =>
    rw [stepsOf, ofPart?_of_ne_dot (by simpa using h), List.filterMap_cons]
    cases Step.ofPart? false first <;> rfl

/-- Only in front of the steps that are left a `.` is kept. -/
theorem stepsOf_eq_or (parts : List (List Char)) :
    stepsOf parts = parts.filterMap (Step.ofPart? false) ∨
      stepsOf parts = .here :: parts.filterMap (Step.ofPart? false) := by
  cases parts with
  | nil => exact .inl rfl
  | cons first rest =>
    by_cases hdot : first = ['.']
    · subst hdot
      exact .inr rfl
    · exact .inl (stepsOf_eq_filterMap (by simpa using hdot))

theorem mem_stepsOf {parts : List (List Char)} {s : Step} (h : s ∈ stepsOf parts) :
    ∃ part ∈ parts, ∃ front, Step.ofPart? front part = some s := by
  cases parts with
  | nil => cases h
  | cons first rest =>
    rcases List.mem_append.1 h with h | h
    · exact ⟨first, List.mem_cons_self, true, Option.mem_toList.1 h⟩
    · obtain ⟨part, hpart, hs⟩ := List.mem_filterMap.1 h
      exact ⟨part, List.mem_cons_of_mem _ hpart, false, hs⟩

/-- A name that was read is proper and made of characters of the text. -/
theorem name_of_ofText {text s : String} (h : .name s ∈ (ofText text).steps) :
    ProperName s ∧ ∀ c ∈ s.toList, c ∈ text.toList := by
  obtain ⟨part, hpart, front, hs⟩ := mem_stepsOf h
  have hslash : '/' ∉ part := fun hc => (Text.mem_of_mem_split hpart hc).2 rfl
  obtain ⟨hchars, hproper⟩ := ofPart?_name hs hslash
  refine ⟨hproper, ?_⟩
  intro c hc
  rw [hchars] at hc
  exact (Text.mem_of_mem_split hpart hc).1

theorem properName_of_ofText {text : String} :
    ∀ s, .name s ∈ (ofText text).steps → ProperName s :=
  fun _ hs => (name_of_ofText hs).1

/-! ## The text of a proper path -/

/-- The parts of the text of a path. -/
def textParts (p : Path) : List (List Char) :=
  (if p.absolute then [[]] else []) ++ (if p.steps = [] then [[]] else p.steps.map Step.part)

theorem toList_text (p : Path) :
    p.text.toList =
      (if p.absolute then ['/'] else []) ++ ['/'].intercalate (p.steps.map Step.part) := by
  rw [text, String.toList_append, String.toList_intercalate, List.map_map]
  congr 1
  cases p.absolute <;> rfl

theorem mem_text {p : Path} {c : Char} (h : c ∈ p.text.toList) :
    c = '/' ∨ ∃ s ∈ p.steps, c ∈ s.part := by
  rw [toList_text] at h
  rcases List.mem_append.1 h with h | h
  · split at h
    · exact .inl (List.mem_singleton.1 h)
    · cases h
  · rcases Text.mem_of_mem_intercalate h with h | ⟨part, hpart, hc⟩
    · exact .inl (List.mem_singleton.1 h)
    · obtain ⟨s, hs, rfl⟩ := List.mem_map.1 hpart
      exact .inr ⟨s, hs, hc⟩

theorem split_parts {steps : List Step} (h : ∀ s ∈ steps, s.Proper) :
    Text.split '/' (['/'].intercalate (steps.map Step.part)) =
      if steps = [] then [[]] else steps.map Step.part := by
  by_cases hnil : steps = []
  · subst hnil
    rfl
  · rw [if_neg hnil, Text.split_intercalate (by simpa using hnil)]
    intro part hpart
    obtain ⟨s, hs, rfl⟩ := List.mem_map.1 hpart
    exact (h s hs).slash_not_mem

theorem Proper.split_text {p : Path} (h : p.Proper) : Text.split '/' p.text.toList = p.textParts := by
  rw [toList_text, textParts, ← split_parts h]
  cases p.absolute with
  | false => rfl
  | true => exact Text.split_append '/' [] _

theorem Proper.not_dot_mem_textParts {p : Path} (h : p.Proper) : ['.'] ∉ p.textParts := by
  intro hmem
  rcases List.mem_append.1 hmem with hmem | hmem
  · split at hmem <;> simp at hmem
  · split at hmem
    · simp at hmem
    · obtain ⟨s, hs, he⟩ := List.mem_map.1 hmem
      exact (h s hs).part_ne_dot he

theorem Proper.filterMap_textParts {p : Path} (h : p.Proper) :
    p.textParts.filterMap (Step.ofPart? false) = p.steps := by
  have hfront : (if p.absolute then [[]] else []).filterMap (Step.ofPart? false) = [] := by
    cases p.absolute <;> rfl
  rw [textParts, List.filterMap_append, hfront, List.nil_append]
  split
  · next hnil => rw [hnil]; rfl
  · exact filterMap_parts h

theorem head?_ne_of_not_mem {α : Type} {x : α} {xs : List α} (h : x ∉ xs) : xs.head? ≠ some x :=
  fun he => h (List.mem_of_mem_head? he)

theorem Proper.head?_text {p : Path} (h : p.Proper) :
    (p.text.toList.head? == some '/') = p.absolute := by
  obtain ⟨absolute, steps⟩ := p
  rw [toList_text]
  cases absolute with
  | true => rfl
  | false =>
    cases steps with
    | nil => rfl
    | cons s rest =>
      have hs : s.Proper := h s List.mem_cons_self
      obtain ⟨c, cs, hc⟩ := List.exists_cons_of_ne_nil hs.part_ne_nil
      have hslash : c ≠ '/' := by
        intro he
        apply hs.slash_not_mem
        rw [hc, he]
        exact List.mem_cons_self
      cases rest with
      | nil => simpa [hc] using hslash
      | cons s' rest => simpa [List.intercalate_cons_cons, hc] using hslash

theorem ofText_text {p : Path} (h : p.Proper) : ofText p.text = p := by
  have hsteps : (ofText p.text).steps = p.steps := by
    show stepsOf (Text.split '/' p.text.toList) = p.steps
    rw [h.split_text, stepsOf_eq_filterMap (head?_ne_of_not_mem h.not_dot_mem_textParts),
      h.filterMap_textParts]
  have habs : (ofText p.text).absolute = p.absolute := h.head?_text
  calc ofText p.text = ⟨(ofText p.text).absolute, (ofText p.text).steps⟩ := rfl
    _ = ⟨p.absolute, p.steps⟩ := by rw [hsteps, habs]

/-- Also after `./` a proper path is read back. -/
theorem ofText_here_text {steps : List Step} (h : ∀ s ∈ steps, s.Proper) :
    ofText ("./" ++ text ⟨false, steps⟩) = ⟨false, .here :: steps⟩ := by
  have hp : Proper ⟨false, steps⟩ := h
  have hchars : ("./" ++ text ⟨false, steps⟩).toList =
      ['.'] ++ '/' :: (text ⟨false, steps⟩).toList := by
    rw [String.toList_append]
    rfl
  have hparts : (textParts ⟨false, steps⟩).filterMap (Step.ofPart? false) = steps :=
    hp.filterMap_textParts
  unfold ofText
  rw [hchars, Text.split_append, hp.split_text]
  show Path.mk false (.here :: (textParts ⟨false, steps⟩).filterMap (Step.ofPart? false)) = _
  rw [hparts]

/-! ## Cutting a text at a slash -/

/-- Only the first and the last part of the text of a proper path can be empty. -/
theorem Proper.nil_not_mem_between {p : Path} (h : p.Proper) :
    [] ∉ p.textParts.tail.dropLast := by
  -- The first part is empty in an absolute path, and the last one in a path without steps.
  have hparts : [] ∉ p.steps.map Step.part := by
    intro hmem
    obtain ⟨s, hs, he⟩ := List.mem_map.1 hmem
    exact (h s hs).part_ne_nil he
  unfold textParts
  by_cases hnil : p.steps = []
  · cases p.absolute <;> simp [hnil]
  · rw [if_neg hnil]
    intro hmem
    apply hparts
    have hmem := (List.dropLast_sublist _).subset hmem
    cases ha : p.absolute with
    | true => simpa [ha] using hmem
    | false => exact List.mem_of_mem_tail (by simpa [ha] using hmem)

theorem nil_mem_between {xs ys : List (List Char)} (hx : xs ≠ []) (hy : ys ≠ []) :
    [] ∈ (xs ++ [] :: ys).tail.dropLast := by
  obtain ⟨x, xs, rfl⟩ := List.exists_cons_of_ne_nil hx
  have hlast : (xs ++ [] :: ys).dropLast = xs ++ [] :: ys.dropLast := by
    rw [List.dropLast_append_of_ne_nil (by simp), List.dropLast_cons_of_ne_nil hy]
  rw [List.cons_append, List.tail_cons, hlast]
  simp

theorem Proper.filterMap_ne_nil {p : Path} (h : p.Proper) {parts : List (List Char)}
    {part : List Char} (hmem : part ∈ parts) (hpart : part ∈ p.steps.map Step.part) :
    parts.filterMap (Step.ofPart? false) ≠ [] := by
  obtain ⟨s, hs, rfl⟩ := List.mem_map.1 hpart
  exact List.ne_nil_of_mem (List.mem_filterMap.2 ⟨_, hmem, (h s hs).ofPart?_part⟩)

/-- A path and what is read in front of and behind a slash of its text. Something
stands in front of it unless that is the root, and something stands behind it
unless the path has no steps. -/
structure CutAt (p : Path) (front back : String) (before after : List Step) : Prop where
  steps : p.steps = before ++ after
  before_ne_nil : p.absolute = false → before ≠ []
  after_ne_nil : p.steps ≠ [] → after ≠ []
  front : ofText (front ++ "/") = ⟨p.absolute, before⟩
  back : ofText back = ⟨false, after⟩

/-- A relative path whose text has two parts has a step for every part. -/
theorem textParts_of_relative {p : Path} (habs : p.absolute = false)
    (hlength : 1 < p.textParts.length) : p.textParts = p.steps.map Step.part := by
  unfold textParts at hlength ⊢
  by_cases hnil : p.steps = []
  · simp [habs, hnil] at hlength
  · simp [habs, hnil]

theorem getLast?_textParts {p : Path} (hne : p.steps ≠ []) :
    ∃ s ∈ p.steps, p.textParts.getLast? = some s.part := by
  obtain ⟨s, hs⟩ := Option.ne_none_iff_exists'.1 (mt List.getLast?_eq_none_iff.1 hne)
  refine ⟨s, List.mem_of_getLast? hs, ?_⟩
  rw [textParts, if_neg hne, List.getLast?_append, List.getLast?_map, hs]
  rfl

/-- A slash at the end of a text adds no step. -/
theorem ofText_append_slash {front : String} (h : ['.'] ∉ Text.split '/' front.toList) :
    ofText (front ++ "/") = ⟨(front ++ "/").toList.head? == some '/',
      (Text.split '/' front.toList).filterMap (Step.ofPart? false)⟩ := by
  have hparts : Text.split '/' (front ++ "/").toList = Text.split '/' front.toList ++ [[]] := by
    rw [String.toList_append]
    exact Text.split_append '/' _ []
  have hdot : ['.'] ∉ Text.split '/' front.toList ++ [[]] := by
    simpa using h
  unfold ofText
  rw [hparts, stepsOf_eq_filterMap (head?_ne_of_not_mem hdot), List.filterMap_append]
  simp [Step.ofPart?]

/-- A proper path whose text is cut at a slash is cut between two steps. -/
theorem Proper.ofText_cut {p : Path} (h : p.Proper) {front back : String}
    (ht : p.text = front ++ "/" ++ back) : ∃ before after, p.CutAt front back before after := by
  have hchars : p.text.toList = front.toList ++ '/' :: back.toList := by
    rw [ht, String.toList_append, String.toList_append, List.append_assoc]
    rfl
  have hsplit : p.textParts = Text.split '/' front.toList ++ Text.split '/' back.toList := by
    rw [← h.split_text, hchars, Text.split_append]
  have hback : Text.split '/' back.toList ≠ [] := Text.split_ne_nil '/' back.toList
  obtain ⟨hdot, hdot'⟩ := not_or.1 (mt List.mem_append.2 (hsplit ▸ h.not_dot_mem_textParts))
  refine ⟨(Text.split '/' front.toList).filterMap (Step.ofPart? false),
    (Text.split '/' back.toList).filterMap (Step.ofPart? false), ?_⟩
  constructor
  case steps => rw [← List.filterMap_append, ← hsplit, h.filterMap_textParts]
  case before_ne_nil =>
    intro habs
    obtain ⟨part, hpart⟩ := List.exists_mem_of_ne_nil _ (Text.split_ne_nil '/' front.toList)
    have hlength : 1 < p.textParts.length := by
      have hfront := List.length_pos_of_mem hpart
      have hpos := List.length_pos_iff.2 hback
      rw [hsplit, List.length_append]
      omega
    apply h.filterMap_ne_nil hpart
    rw [← textParts_of_relative habs hlength, hsplit]
    exact List.mem_append_left _ hpart
  case after_ne_nil =>
    intro hne
    obtain ⟨s, hs, hlast⟩ := getLast?_textParts hne
    rw [hsplit, List.getLast?_append, Option.or_of_isSome (by simpa using hback)] at hlast
    exact h.filterMap_ne_nil (List.mem_of_getLast? hlast) (List.mem_map_of_mem hs)
  case front =>
    have habs : ((front ++ "/").toList.head? == some '/') = p.absolute := by
      rw [← h.head?_text, hchars, String.toList_append]
      cases front.toList <;> rfl
    rw [ofText_append_slash hdot, habs]
  case back =>
    -- A slash at the front of the back would leave an empty part between two others.
    have hrelative : (back.toList.head? == some '/') = false := by
      rw [beq_eq_false_iff_ne]
      intro he
      obtain ⟨rest, hrest⟩ := List.head?_eq_some_iff.1 he
      have hcons : Text.split '/' back.toList = [] :: Text.split '/' rest := by
        rw [hrest, Text.split, if_pos rfl]
      apply h.nil_not_mem_between
      rw [hsplit, hcons]
      exact nil_mem_between (Text.split_ne_nil '/' _) (Text.split_ne_nil '/' rest)
    unfold ofText
    rw [hrelative, stepsOf_eq_filterMap (head?_ne_of_not_mem hdot')]

end ClientRoutes.Path
