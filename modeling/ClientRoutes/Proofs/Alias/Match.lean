import ClientRoutes.AliasMap
import ClientRoutes.Proofs.Path.Normalizing

/-
  The alias that an import uses.

  An import uses an alias if it goes on behind it with a slash. Of several the
  longest is meant. Two of one length are the same one, since both are the front
  of one text.

  What is proved:
    1. `lastGreatest?_eq_some`, `lastGreatest?_eq_none_iff` — an entry with the
       greatest measure.
    2. `regular_new`, `Regular.insert` — maps that are built from paths with
       slashes.
    3. `Uses.eq_or_extends` — a longer alias continues a shorter one.
    4. `Longest.unique` — there is one longest alias at most.
    5. `match?_eq_some_iff` — it is the one that is found.
-/

namespace ClientRoutes.AliasMap

/-! ## An entry with the greatest measure -/

section Greatest

variable {α : Type} {measure : α → Nat}

/-- The better one of the best entry before and one more. -/
def better (measure : α → Nat) (best : Option α) (x : α) : Option α :=
  match best with
  | some b => if measure b ≤ measure x then some x else best
  | none => some x

theorem lastGreatest?_eq_foldl (xs : List α) :
    lastGreatest? measure xs = xs.foldl (better measure) none := rfl

theorem exists_better (measure : α → Nat) (best : Option α) (x : α) :
    ∃ y, better measure best x = some y ∧ (y = x ∨ best = some y) ∧
      measure x ≤ measure y ∧ ∀ b, best = some b → measure b ≤ measure y := by
  cases best with
  | none => exact ⟨x, rfl, .inl rfl, Nat.le_refl _, fun b hb => by cases hb⟩
  | some b =>
    by_cases hle : measure b ≤ measure x
    · refine ⟨x, if_pos hle, .inl rfl, Nat.le_refl _, ?_⟩
      intro b' hb'
      obtain rfl := Option.some.inj hb'
      exact hle
    · refine ⟨b, if_neg hle, .inr rfl, by omega, ?_⟩
      intro b' hb'
      obtain rfl := Option.some.inj hb'
      exact Nat.le_refl _

/-- What is known of the best entry after some more of them. -/
theorem foldl_better {xs : List α} {best : Option α} {x : α}
    (h : xs.foldl (better measure) best = some x) :
    (x ∈ xs ∨ best = some x) ∧ (∀ y ∈ xs, measure y ≤ measure x) ∧
      ∀ b, best = some b → measure b ≤ measure x := by
  -- The induction is for every best entry so far, which later ones can only surpass.
  induction xs generalizing best with
  | nil =>
    refine ⟨.inr h, by simp, ?_⟩
    intro b hb
    obtain rfl := Option.some.inj (hb.symm.trans h)
    exact Nat.le_refl _
  | cons y ys ih =>
    obtain ⟨z, hz, hmem, hyz, hbest⟩ := exists_better measure best y
    rw [List.foldl_cons, hz] at h
    obtain ⟨hx, hys, hzx⟩ := ih h
    have hzx := hzx z rfl
    refine ⟨?_, ?_, fun b hb => Nat.le_trans (hbest b hb) hzx⟩
    · rcases hx with hx | hx
      · exact .inl (List.mem_cons_of_mem _ hx)
      · obtain rfl := Option.some.inj hx
        rcases hmem with rfl | hmem
        · exact .inl List.mem_cons_self
        · exact .inr hmem
    · intro w hw
      rcases List.mem_cons.1 hw with rfl | hw
      · exact Nat.le_trans hyz hzx
      · exact hys w hw

theorem lastGreatest?_eq_some {xs : List α} {x : α} (h : lastGreatest? measure xs = some x) :
    x ∈ xs ∧ ∀ y ∈ xs, measure y ≤ measure x := by
  obtain ⟨hx, hmax, -⟩ := foldl_better h
  exact ⟨hx.resolve_right (by simp), hmax⟩

theorem lastGreatest?_eq_none_iff {xs : List α} : lastGreatest? measure xs = none ↔ xs = [] := by
  constructor
  · intro h
    rcases List.eq_nil_or_concat xs with rfl | ⟨ys, y, rfl⟩
    · rfl
    · rw [lastGreatest?_eq_foldl, List.concat_eq_append, List.foldl_append] at h
      obtain ⟨z, hz, -⟩ := exists_better measure (ys.foldl (better measure) none) y
      exact absurd (hz.symm.trans h) (by simp)
  · rintro rfl
    rfl

end Greatest

/-! ## Maps as they are built -/

/-- A map of aliases as its callers build it, from paths with slashes. -/
structure Regular (a : AliasMap) : Prop where
  sorted : a.roots.Sorted
  absolute : (Path.ofText a.base).absolute = true
  base_plain : '\\' ∉ a.base.toList
  root_plain : ∀ name root, a.roots.get? name = some root → '\\' ∉ root.toList

theorem regular_new {base : String} (habs : (Path.ofText base).absolute = true)
    (hplain : '\\' ∉ base.toList) : (new base).Regular where
  sorted := TextMap.sorted_empty
  absolute := habs
  base_plain := hplain
  root_plain := by
    intro name root h
    cases h

theorem mem_of_mem_trimRoot {root : String} {c : Char} (h : c ∈ (trimRoot root).toList) :
    c ∈ root.toList := by
  rw [trimRoot, String.toList_ofList, List.mem_reverse] at h
  exact List.mem_reverse.1 ((List.dropWhile_sublist _).subset h)

theorem Regular.insert {a : AliasMap} (ha : a.Regular) (name : String) {root : String}
    (hplain : '\\' ∉ root.toList) : (a.insert name root).Regular where
  sorted := TextMap.sorted_insert ha.sorted name _
  absolute := ha.absolute
  base_plain := ha.base_plain
  root_plain := by
    intro other root' h
    by_cases hname : other = name
    · subst hname
      have hroot := (TextMap.get?_insert_self a.roots other (trimRoot root)).symm.trans h
      obtain rfl := Option.some.inj hroot
      exact fun hmem => hplain (mem_of_mem_trimRoot hmem)
    · exact ha.root_plain other root'
        ((TextMap.get?_insert_of_ne a.roots hname (trimRoot root)).symm.trans h)

theorem sorted_insertAll {a : AliasMap} (h : a.roots.Sorted) (entries : List (String × String)) :
    (a.insertAll entries).roots.Sorted := by
  induction entries generalizing a with
  | nil => exact h
  | cons e rest ih =>
    apply ih
    exact TextMap.sorted_insert h e.1 _

/-! ## Where paths lead -/

theorem absolute_anchor {a : AliasMap} (h : (Path.ofText a.base).absolute = true) (p : Path) :
    (a.anchor p).absolute = true := by
  unfold anchor Path.join Path.normalize
  split
  · next hp => exact hp
  · exact h

/-- Names behind a path lead on from where the path leads. -/
theorem anchor_join_names {a : AliasMap} (h : (Path.ofText a.base).absolute = true) (p : Path)
    {steps : List Path.Step} (hnames : Path.AllNames steps) :
    a.anchor (p.join ⟨false, steps⟩) = ⟨true, (a.anchor p).steps ++ steps⟩ := by
  have hjoin : p.join ⟨false, steps⟩ = ⟨p.absolute, p.steps ++ steps⟩ := rfl
  unfold anchor
  rw [hjoin]
  cases habs : p.absolute with
  | true =>
    rw [Path.normalize_join_of_absolute rfl, Path.normalize_join_of_absolute habs]
    simp only [Path.normalize, List.foldl_append, Path.foldl_advance_names steps _ hnames]
  | false =>
    rw [Path.normalize_join rfl, Path.normalize_join habs, h]
    simp only [List.foldl_append, Path.foldl_advance_names steps _ hnames]

/-! ## The longest alias -/

/-- That an import uses an alias. -/
structure Uses (a : AliasMap) (specifier : String) (m : Match) : Prop where
  root : a.roots.get? m.name = some m.root
  specifier : specifier = m.name ++ "/" ++ m.rest

/-- That an import uses an alias and no longer one. -/
structure Longest (a : AliasMap) (specifier : String) (m : Match) : Prop where
  uses : a.Uses specifier m
  longest : ∀ m', a.Uses specifier m' → m'.name.length ≤ m.name.length

variable {a : AliasMap} {specifier : String} {m m' : Match}

theorem Uses.of_eq {name root rest : String} (hroot : a.roots.get? name = some root)
    (h : specifier = name ++ "/" ++ rest) : a.Uses specifier ⟨name, root, rest⟩ where
  root := hroot
  specifier := h

theorem mem_candidates_iff (hsorted : a.roots.Sorted) :
    m ∈ a.candidates specifier ↔ a.Uses specifier m := by
  unfold candidates
  rw [List.mem_filterMap]
  constructor
  · rintro ⟨⟨name, root⟩, hmem, h⟩
    obtain ⟨rest, hrest, rfl⟩ := Option.map_eq_some_iff.1 h
    exact ⟨(TextMap.mem_entries_iff hsorted _ _).1 hmem,
      (Text.stripPrefix?_eq_some_iff _ _ _).1 hrest⟩
  · rintro ⟨hroot, hspecifier⟩
    refine ⟨(m.name, m.root), (TextMap.mem_entries_iff hsorted _ _).2 hroot, ?_⟩
    show (Text.stripPrefix? (m.name ++ "/") specifier).map _ = _
    rw [(Text.stripPrefix?_eq_some_iff _ _ _).2 hspecifier]
    rfl

/-- Of two aliases that an import uses the longer one continues the shorter. -/
theorem Uses.exists_append (h : a.Uses specifier m) (h' : a.Uses specifier m')
    (hle : m.name.length ≤ m'.name.length) : ∃ t, m'.name = m.name ++ t := by
  have hchars : m.name.toList ++ ("/" ++ m.rest).toList =
      m'.name.toList ++ ("/" ++ m'.rest).toList := by
    rw [← String.toList_append, ← String.toList_append, ← String.append_assoc,
      ← String.append_assoc, ← h.specifier, ← h'.specifier]
  rcases List.append_eq_append_iff.1 hchars with ⟨cs, hcs, -⟩ | ⟨cs, hcs, -⟩
  · refine ⟨String.ofList cs, String.toList_injective ?_⟩
    rw [hcs, String.toList_append, String.toList_ofList]
  · have hlength : m.name.toList.length ≤ m'.name.toList.length := by
      simpa [String.length_toList] using hle
    have hnil : cs = [] := by
      rw [hcs, List.length_append] at hlength
      exact List.length_eq_zero_iff.1 (by omega)
    subst hnil
    refine ⟨"", String.toList_injective ?_⟩
    rw [List.append_nil] at hcs
    simpa using hcs.symm

theorem Uses.eq_of_name (h : a.Uses specifier m) (h' : a.Uses specifier m')
    (hname : m.name = m'.name) : m = m' := by
  obtain ⟨name, root, rest⟩ := m
  obtain ⟨name', root', rest'⟩ := m'
  obtain rfl : name = name' := hname
  have hroot : root = root' := Option.some.inj (h.root.symm.trans h'.root)
  have hrest : rest = rest' := by
    have he := h.specifier.symm.trans h'.specifier
    exact (String.append_right_inj _).1 he
  rw [hroot, hrest]

/-- Two aliases of one length are the same. -/
theorem Uses.eq_of_length (h : a.Uses specifier m) (h' : a.Uses specifier m')
    (hlength : m.name.length = m'.name.length) : m = m' := by
  obtain ⟨t, ht⟩ := h.exists_append h' (Nat.le_of_eq hlength)
  apply h.eq_of_name h'
  rw [ht, String.length_append] at hlength
  have hempty : t = "" := String.length_eq_zero_iff.1 (by omega)
  rw [ht, hempty, String.append_empty]

/-- Of two aliases that an import uses the longer one goes on behind a slash. -/
theorem Uses.eq_or_extends (h : a.Uses specifier m) (h' : a.Uses specifier m')
    (hle : m.name.length ≤ m'.name.length) :
    m' = m ∨ ∃ t, m'.name = m.name ++ "/" ++ t ∧ m.rest = t ++ "/" ++ m'.rest := by
  obtain ⟨t, ht⟩ := h.exists_append h' hle
  by_cases hempty : t = ""
  · subst hempty
    rw [String.append_empty] at ht
    exact .inl (h'.eq_of_name h ht)
  · -- The slash behind the shorter alias is the first character that the longer one adds.
    right
    have hrest : "/" ++ m.rest = t ++ "/" ++ m'.rest := by
      have he := h.specifier.symm.trans h'.specifier
      rw [ht, String.append_assoc, String.append_assoc, String.append_assoc] at he
      rw [String.append_assoc]
      exact (String.append_right_inj _).1 he
    have hchars := congrArg String.toList hrest
    rw [String.append_assoc, String.toList_append, String.toList_append] at hchars
    obtain ⟨c, cs, hcs⟩ : ∃ c cs, t.toList = c :: cs :=
      List.exists_cons_of_ne_nil fun hnil => hempty (String.toList_injective hnil)
    rw [hcs] at hchars
    have hc : c = '/' := by
      simpa [eq_comm] using congrArg List.head? hchars
    have hslash : t = "/" ++ String.ofList cs := by
      apply String.toList_injective
      rw [hcs, hc, String.toList_append]
      simp
    refine ⟨String.ofList cs, by rw [ht, hslash, String.append_assoc], ?_⟩
    rw [hslash, String.append_assoc, String.append_assoc] at hrest
    rw [String.append_assoc]
    exact (String.append_right_inj _).1 hrest

theorem Longest.unique (h : a.Longest specifier m) (h' : a.Longest specifier m') : m = m' :=
  h.uses.eq_of_length h'.uses
    (Nat.le_antisymm (h'.longest m h.uses) (h.longest m' h'.uses))

/-- More bytes mean more characters, for aliases that one import uses. -/
theorem Uses.length_le (h : a.Uses specifier m) (h' : a.Uses specifier m')
    (hbytes : m'.name.utf8ByteSize ≤ m.name.utf8ByteSize) : m'.name.length ≤ m.name.length := by
  -- Bytes and characters need not agree on other texts, but here one continues the other.
  by_contra hlt
  obtain ⟨t, ht⟩ := h.exists_append h' (by omega)
  rw [ht, String.utf8ByteSize_append] at hbytes
  have hempty : t = "" := String.utf8ByteSize_eq_zero_iff.1 (by omega)
  have hlength : m'.name.length = m.name.length := by rw [ht, hempty, String.append_empty]
  omega

theorem Uses.exists_longest (hsorted : a.roots.Sorted) (h : a.Uses specifier m) :
    ∃ m', a.match? specifier = some m' := by
  apply Option.ne_none_iff_exists'.1
  intro hnone
  have hnil := lastGreatest?_eq_none_iff.1 hnone
  have hmem := (mem_candidates_iff hsorted).2 h
  rw [hnil] at hmem
  cases hmem

theorem longest_of_match? (hsorted : a.roots.Sorted) (h : a.match? specifier = some m) :
    a.Longest specifier m := by
  obtain ⟨hmem, hmax⟩ := lastGreatest?_eq_some h
  have huses := (mem_candidates_iff hsorted).1 hmem
  refine ⟨huses, ?_⟩
  intro m' h'
  exact huses.length_le h' (hmax m' ((mem_candidates_iff hsorted).2 h'))

/-- The alias that is found is the longest. -/
theorem match?_eq_some_iff (hsorted : a.roots.Sorted) :
    a.match? specifier = some m ↔ a.Longest specifier m := by
  constructor
  · exact longest_of_match? hsorted
  · intro h
    obtain ⟨m', hm'⟩ := h.uses.exists_longest hsorted
    rw [hm', (longest_of_match? hsorted hm').unique h]

theorem match?_eq_none_iff (hsorted : a.roots.Sorted) :
    a.match? specifier = none ↔ ∀ m, ¬ a.Longest specifier m := by
  constructor
  · intro hnone m h
    rw [(match?_eq_some_iff hsorted).2 h] at hnone
    cases hnone
  · intro h
    cases hm : a.match? specifier with
    | none => rfl
    | some m => exact absurd (longest_of_match? hsorted hm) (h m)

end ClientRoutes.AliasMap
