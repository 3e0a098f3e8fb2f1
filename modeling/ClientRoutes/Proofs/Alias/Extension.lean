import ClientRoutes.AliasMap
import ClientRoutes.Proofs.Path.Normalizing

/-
  Extensions of source files, as texts and as paths.

  An import leaves the extension of a file away. The extension is taken from the
  end of the whole text; since it has no slash, it is the end of the last name.
  Backslashes become slashes, which changes no path that has none.

  What is proved:
    1. `withoutExtension_append`, `withoutExtension_eq_or` — what is left away.
    2. `withoutExtension_text` — the text of a path loses what its last name
       loses.
    3. `Proper.bare`, `bare_standsFor` — what is left is a proper path that
       stands for the file.
    4. `withSlashes_text` — the text of a path without backslashes.
-/

namespace ClientRoutes.AliasMap

open ClientRoutes.Path (Step ProperName AllNames)

/-! ## Extensions of texts -/

/-- The extensions of source files. -/
def extensions : List String := [".ts", ".tsx"]

theorem append_ts_ne_append_tsx (s t : String) : s ++ ".ts" ≠ t ++ ".tsx" := by
  intro he
  have hlast := congrArg (fun u : String => u.toList.getLast?) he
  simp at hlast

theorem withoutExtension_append (s : String) {ext : String} (h : ext ∈ extensions) :
    withoutExtension (s ++ ext) = s := by
  unfold withoutExtension
  rcases List.mem_cons.1 h with rfl | h
  · -- The longer extension is tried first, and does not fit.
    have hts : Text.stripSuffix? ".ts" (s ++ ".ts") = some s :=
      (Text.stripSuffix?_eq_some_iff _ _ _).2 rfl
    have htsx : Text.stripSuffix? ".tsx" (s ++ ".ts") = none := by
      rw [Option.eq_none_iff_forall_ne_some]
      intro t ht
      exact append_ts_ne_append_tsx s t ((Text.stripSuffix?_eq_some_iff _ _ _).1 ht)
    rw [hts, htsx]
    rfl
  · obtain rfl := List.mem_singleton.1 h
    have htsx : Text.stripSuffix? ".tsx" (s ++ ".tsx") = some s :=
      (Text.stripSuffix?_eq_some_iff _ _ _).2 rfl
    rw [htsx]
    rfl

/-- Either an extension is left away, or there is none. -/
theorem withoutExtension_eq_or (s : String) :
    (∃ ext ∈ extensions, s = withoutExtension s ++ ext) ∨
      withoutExtension s = s ∧ ∀ ext ∈ extensions, ∀ front, s ≠ front ++ ext := by
  by_cases h : ∃ ext ∈ extensions, ∃ front, s = front ++ ext
  · obtain ⟨ext, hext, front, rfl⟩ := h
    exact .inl ⟨ext, hext, by rw [withoutExtension_append front hext]⟩
  · right
    have hnone : ∀ ext ∈ extensions, ∀ front, s ≠ front ++ ext :=
      fun ext hext front he => h ⟨ext, hext, front, he⟩
    refine ⟨?_, hnone⟩
    have hstrip : ∀ ext ∈ extensions, Text.stripSuffix? ext s = none := by
      intro ext hext
      rw [Option.eq_none_iff_forall_ne_some]
      intro front hfront
      exact hnone ext hext front ((Text.stripSuffix?_eq_some_iff _ _ _).1 hfront)
    unfold withoutExtension
    rw [hstrip ".tsx" (by simp [extensions]), hstrip ".ts" (by simp [extensions])]
    rfl

theorem slash_not_mem_extension {ext : String} (h : ext ∈ extensions) : '/' ∉ ext.toList := by
  rcases List.mem_cons.1 h with rfl | h
  · decide
  · obtain rfl := List.mem_singleton.1 h
    decide

/-- What stands up to a slash has no part in the extension. -/
theorem withoutExtension_append_right {front : String}
    (hfront : front = "" ∨ ∃ t, front = t ++ "/") (s : String) :
    withoutExtension (front ++ s) = front ++ withoutExtension s := by
  rcases withoutExtension_eq_or s with ⟨ext, hext, hs⟩ | ⟨hs, hnone⟩
  · generalize withoutExtension s = w at hs ⊢
    rw [hs, ← String.append_assoc, withoutExtension_append _ hext]
  · rw [hs]
    rcases withoutExtension_eq_or (front ++ s) with ⟨ext, hext, he⟩ | ⟨he, -⟩
    · exfalso
      generalize withoutExtension (front ++ s) = w at he
      have hchars : front.toList ++ s.toList = w.toList ++ ext.toList := by
        rw [← String.toList_append, he, String.toList_append]
      rcases List.append_eq_append_iff.1 hchars with ⟨cs, -, hcs⟩ | ⟨cs, hcs, hext'⟩
      · apply hnone ext hext (String.ofList cs)
        apply String.toList_injective
        rw [hcs, String.toList_append, String.toList_ofList]
      · -- The extension would reach over the slash at the end of the front.
        rcases List.eq_nil_or_concat cs with rfl | ⟨cs, c, rfl⟩
        · apply hnone ext hext ""
          apply String.toList_injective
          rw [String.toList_append, hext']
          rfl
        · have hslash : c = '/' := by
            rcases hfront with rfl | ⟨t, rfl⟩
            · simp at hcs
            · have hlast := congrArg List.getLast? hcs
              simpa [eq_comm] using hlast
          apply slash_not_mem_extension hext
          rw [hext', hslash]
          simp
    · exact he

/-! ## Extensions of paths -/

/-- A step without its extension. -/
def bareStep : Step → Step
  | .name s => .name (withoutExtension s)
  | s => s

/-- A path whose last step has lost its extension. -/
def bare (p : Path) : Path :=
  ⟨p.absolute, p.steps.dropLast ++ (p.steps.getLast?.map bareStep).toList⟩

@[simp] theorem bare_concat (absolute : Bool) (front : List Step) (s : Step) :
    bare ⟨absolute, front ++ [s]⟩ = ⟨absolute, front ++ [bareStep s]⟩ := by
  simp [bare]

@[simp] theorem bare_nil (absolute : Bool) : bare ⟨absolute, []⟩ = ⟨absolute, []⟩ := rfl

/-- A path whose last name has no extension keeps all of it. -/
theorem bare_eq_self {p : Path}
    (h : ∀ s, p.steps.getLast? = some (.name s) → withoutExtension s = s) : bare p = p := by
  obtain ⟨absolute, steps⟩ := p
  rcases List.eq_nil_or_concat steps with rfl | ⟨front, s, rfl⟩
  · rfl
  · rw [List.concat_eq_append] at h ⊢
    rw [bare_concat]
    cases s with
    | here => rfl
    | up => rfl
    | name t => rw [bareStep, h t (by simp)]

/-- That a path is a file, or the file without its extension. -/
inductive StandsFor : Path → Path → Prop
  | same (p : Path) : StandsFor p p
  | shortened (absolute : Bool) (front : List Step) (name ext : String) (h : ext ∈ extensions) :
      StandsFor ⟨absolute, front ++ [.name name]⟩ ⟨absolute, front ++ [.name (name ++ ext)]⟩

theorem StandsFor.eq_or_eq_bare {q p : Path} (h : StandsFor q p) : q = p ∨ q = bare p := by
  cases h with
  | same => exact .inl rfl
  | shortened absolute front name ext hext =>
    rw [bare_concat, bareStep, withoutExtension_append name hext]
    exact .inr rfl

theorem bare_standsFor (p : Path) : StandsFor (bare p) p := by
  obtain ⟨absolute, steps⟩ := p
  rcases List.eq_nil_or_concat steps with rfl | ⟨front, s, rfl⟩
  · exact .same _
  · rw [List.concat_eq_append, bare_concat]
    cases s with
    | here => exact .same _
    | up => exact .same _
    | name s =>
      rcases withoutExtension_eq_or s with ⟨ext, hext, hs⟩ | ⟨hs, -⟩
      · have h := StandsFor.shortened absolute front (withoutExtension s) ext hext
        rwa [← hs] at h
      · rw [bareStep, hs]
        exact .same _

theorem allNames_bare {p : Path} (h : AllNames p.steps) : AllNames (bare p).steps := by
  obtain ⟨absolute, steps⟩ := p
  rcases List.eq_nil_or_concat steps with rfl | ⟨front, s, rfl⟩
  · exact h
  · rw [List.concat_eq_append] at h ⊢
    rw [bare_concat]
    obtain ⟨t, rfl⟩ := h s (by simp)
    refine AllNames.append (h.of_subset (List.subset_append_left _ _)) ?_
    intro x hx
    exact ⟨_, List.mem_singleton.1 hx⟩

theorem standsFor_iff (q p : Path) : StandsFor q p ↔ q = p ∨ q = bare p := by
  constructor
  · exact StandsFor.eq_or_eq_bare
  · rintro (rfl | rfl)
    · exact .same _
    · exact bare_standsFor p

instance (q p : Path) : Decidable (StandsFor q p) := decidable_of_iff' _ (standsFor_iff q p)

/-- A file whose name is without extension is its own stand-in. -/
theorem StandsFor.eq_bare {absolute : Bool} {front front' : List Step} {name : String}
    (h : StandsFor ⟨absolute, front ++ [.name (withoutExtension name)]⟩
      ⟨absolute, front' ++ [.name name]⟩) :
    front = front' := by
  generalize hq : Path.mk absolute (front ++ [.name (withoutExtension name)]) = q at h
  generalize hp : Path.mk absolute (front' ++ [.name name]) = p at h
  cases h with
  | same =>
    rw [← hq] at hp
    have := (Path.mk.inj hp).2
    exact ((List.append_inj' this rfl).1).symm
  | shortened absolute' front'' name'' ext hext =>
    have hq' := List.append_inj' (Path.mk.inj hq).2 rfl
    have hp' := List.append_inj' (Path.mk.inj hp).2 rfl
    exact hq'.1.trans hp'.1.symm

theorem exists_text_concat (absolute : Bool) (front : List Step) :
    ∃ before, (before = "" ∨ ∃ t, before = t ++ "/") ∧
      ∀ s, Path.text ⟨absolute, front ++ [s]⟩ = before ++ s.text := by
  by_cases hnil : front = []
  · subst hnil
    refine ⟨if absolute then "/" else "", ?_, ?_⟩
    · cases absolute with
      | false => exact .inl rfl
      | true => exact .inr ⟨"", rfl⟩
    · intro s
      simp [Path.text]
  · refine ⟨Path.text ⟨absolute, front⟩ ++ "/", .inr ⟨_, rfl⟩, ?_⟩
    intro s
    have hjoin : "/".intercalate (front.map Step.text ++ [s.text]) =
        "/".intercalate (front.map Step.text) ++ "/" ++ s.text := by
      rw [String.intercalate_append_of_ne_nil (by simpa using hnil) (by simp),
        String.intercalate_singleton]
    simp only [Path.text, List.map_append, List.map_cons, List.map_nil, hjoin,
      String.append_assoc]

/-- The text of a path loses what its last step loses. -/
theorem withoutExtension_text (p : Path) : withoutExtension p.text = (bare p).text := by
  obtain ⟨absolute, steps⟩ := p
  rcases List.eq_nil_or_concat steps with rfl | ⟨front, s, rfl⟩
  · cases absolute <;> rfl
  · rw [List.concat_eq_append, bare_concat]
    obtain ⟨before, hbefore, htext⟩ := exists_text_concat absolute front
    rw [htext, htext, withoutExtension_append_right hbefore]
    cases s with
    | here => rfl
    | up => rfl
    | name s => rfl

/-! ## Names that keep something -/

/-- A path whose last name is more than dots when its extension is left away. -/
def KeepsName (p : Path) : Prop :=
  ∀ s, p.steps.getLast? = some (.name s) → ∃ c ∈ (withoutExtension s).toList, c ≠ '.'

theorem keepsName_of_mem {p : Path} {s : String} (hlast : p.steps.getLast? = some (.name s))
    {c : Char} (hc : c ∈ (withoutExtension s).toList) (hdot : c ≠ '.') : KeepsName p := by
  intro t ht
  obtain rfl := Step.name.inj (Option.some.inj (hlast.symm.trans ht))
  exact ⟨c, hc, hdot⟩

theorem mem_of_mem_withoutExtension {s : String} {c : Char} (h : c ∈ (withoutExtension s).toList) :
    c ∈ s.toList := by
  rcases withoutExtension_eq_or s with ⟨ext, -, hs⟩ | ⟨hs, -⟩
  · rw [hs, String.toList_append]
    exact List.mem_append_left _ h
  · rwa [hs] at h

theorem properName_withoutExtension {s : String} (h : ProperName s)
    (hkeeps : ∃ c ∈ (withoutExtension s).toList, c ≠ '.') : ProperName (withoutExtension s) := by
  obtain ⟨c, hc, hdot⟩ := hkeeps
  refine ⟨?_, ?_, ?_, fun hslash => h.2.2.2 (mem_of_mem_withoutExtension hslash)⟩
  · intro he
    rw [he] at hc
    simp at hc
  · intro he
    rw [he] at hc
    simp at hc
    exact hdot hc
  · intro he
    rw [he] at hc
    simp at hc
    exact hdot hc

theorem proper_bare {p : Path} (h : p.Proper) (hkeeps : KeepsName p) : (bare p).Proper := by
  obtain ⟨absolute, steps⟩ := p
  rcases List.eq_nil_or_concat steps with rfl | ⟨front, s, rfl⟩
  · exact h
  · rw [List.concat_eq_append] at h hkeeps ⊢
    rw [bare_concat]
    intro x hx
    rcases List.mem_append.1 hx with hx | hx
    · exact h x (List.mem_append_left _ hx)
    · obtain rfl := List.mem_singleton.1 hx
      have hs : s.Proper := h s (by simp)
      cases s with
      | here => exact hs
      | up => exact hs
      | name s => exact properName_withoutExtension hs (hkeeps s (by simp))

/-! ## Backslashes -/

/-- A path none of whose names has a backslash. -/
def Plain (p : Path) : Prop := ∀ s, .name s ∈ p.steps → '\\' ∉ s.toList

theorem plain_ofText {s : String} (h : '\\' ∉ s.toList) : Plain (Path.ofText s) :=
  fun _ ht hc => h ((Path.name_of_ofText ht).2 _ hc)

theorem plain_join {base p : Path} (hbase : Plain base) (hp : Plain p) : Plain (base.join p) := by
  intro s hs
  rcases Path.name_of_join hs with hs | hs
  · exact hbase s hs
  · exact hp s hs

theorem plain_normalize {p : Path} (h : Plain p) : Plain p.normalize :=
  fun s hs => h s (Path.name_of_normalize hs)

theorem plain_bare {p : Path} (h : Plain p) : Plain (bare p) := by
  obtain ⟨absolute, steps⟩ := p
  rcases List.eq_nil_or_concat steps with rfl | ⟨front, s, rfl⟩
  · exact h
  · rw [List.concat_eq_append] at h ⊢
    rw [bare_concat]
    intro t ht
    rcases List.mem_append.1 ht with ht | ht
    · exact h t (List.mem_append_left _ ht)
    · cases s with
      | here => cases List.mem_singleton.1 ht
      | up => cases List.mem_singleton.1 ht
      | name s =>
        obtain rfl := Step.name.inj (List.mem_singleton.1 ht)
        exact fun hc => h s (by simp) (mem_of_mem_withoutExtension hc)

theorem withSlashes_text {p : Path} (h : Plain p) : withSlashes p.text = p.text := by
  have hnone : ∀ c ∈ p.text.toList, c ≠ '\\' := by
    intro c hc he
    subst he
    rcases Path.mem_text hc with hslash | ⟨s, hs, hc⟩
    · simp at hslash
    · cases s with
      | here => simp [Step.part, Step.text] at hc
      | up => simp [Step.part, Step.text] at hc
      | name s => exact h s hs hc
  apply String.toList_injective
  rw [withSlashes, Text.toList_replaceChar]
  conv_rhs => rw [← List.map_id p.text.toList]
  apply List.map_congr_left
  intro c hc
  rw [if_neg (hnone c hc)]
  rfl

end ClientRoutes.AliasMap
