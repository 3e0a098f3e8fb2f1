import ClientRoutes.Text.Blank
import Mathlib.Data.List.TakeWhile

/-
  Trimming.

  A trimmed text has no blank at either end. Trimming a text cuts it into blanks, a
  trimmed text and blanks again, and there is only one such cut with the same text in
  the middle.

  What is proved:
    1. `trim_append` — blanks around a trimmed text are dropped.
    2. `exists_trim` — what trimming leaves is trimmed, and only blanks are dropped.
    3. `trim_cons`, `trim_concat` — a single blank at either end.
-/

namespace ClientRoutes.Text

/-- A text that neither begins nor ends with a blank. -/
structure Trimmed (s : List Char) : Prop where
  front : ∀ c, s.head? = some c → isBlank c = false
  back : ∀ c, s.getLast? = some c → isBlank c = false

/-- A text of blanks only. -/
def Blank (s : List Char) : Prop := ∀ c ∈ s, isBlank c = true

theorem blank_nil : Blank [] := fun _ h => by cases h

theorem Trimmed.of_forall {s : List Char} (h : ∀ c ∈ s, isBlank c = false) : Trimmed s :=
  ⟨fun c hc => h c (List.mem_of_head? hc), fun c hc => h c (List.mem_of_getLast? hc)⟩

theorem Trimmed.reverse {s : List Char} (h : Trimmed s) : Trimmed s.reverse :=
  ⟨fun c hc => h.back c (by rwa [List.head?_reverse] at hc),
    fun c hc => h.front c (by rwa [List.getLast?_reverse] at hc)⟩

/-- The ends of a text settle whether it is trimmed, whatever stands between. -/
theorem Trimmed.append {s t : List Char} (hs : Trimmed s) (hne : s ≠ []) (ht : Trimmed t)
    (hne' : t ≠ []) (between : List Char) : Trimmed (s ++ between ++ t) := by
  obtain ⟨d, hd⟩ := Option.isSome_iff_exists.1 (List.isSome_head?.2 hne)
  obtain ⟨e, he⟩ := Option.isSome_iff_exists.1 (List.getLast?_isSome.2 hne')
  refine ⟨fun c hc => hs.front c ?_, fun c hc => ht.back c ?_⟩
  · rwa [List.append_assoc, List.head?_append, hd, Option.some_or, ← hd] at hc
  · rwa [List.getLast?_append, he, Option.some_or, ← he] at hc

theorem Trimmed.intercalate {parts : List (List Char)} (h : ∀ part ∈ parts, Trimmed part)
    (hne : ∀ part ∈ parts, part ≠ []) (separator : List Char) :
    Trimmed (separator.intercalate parts) := by
  induction parts with
  | nil => exact .of_forall (by simp)
  | cons part parts ih =>
    obtain ⟨hpart, h⟩ := List.forall_mem_cons.1 h
    obtain ⟨hpart', hne⟩ := List.forall_mem_cons.1 hne
    cases parts with
    | nil => rwa [List.intercalate_singleton]
    | cons next parts =>
      rw [List.intercalate_cons_cons]
      refine hpart.append hpart' (ih h hne) ?_ separator
      -- The rest begins with a part that is not empty.
      cases parts <;> simp [List.intercalate_cons_cons, hne next]

/-! ## One end -/

theorem trimLeft_append {front : List Char} (h : Blank front) (s : List Char) :
    trimLeft (front ++ s) = trimLeft s :=
  List.dropWhile_append_of_pos h

theorem trimLeft_of_front {s : List Char} (h : ∀ c, s.head? = some c → isBlank c = false) :
    trimLeft s = s := by
  cases s with
  | nil => rfl
  | cons c rest => exact List.dropWhile_cons_of_neg (by simp [h c rfl])

theorem exists_trimLeft (s : List Char) :
    (∀ c, (trimLeft s).head? = some c → isBlank c = false) ∧
      ∃ front, Blank front ∧ s = front ++ trimLeft s := by
  refine ⟨fun c hc => ?_, s.takeWhile isBlank, fun c hc => List.mem_takeWhile_imp hc,
    List.takeWhile_append_dropWhile.symm⟩
  have hhead := List.head?_dropWhile_not isBlank s
  rw [← trimLeft, hc] at hhead
  simpa using hhead

theorem trimRight_eq (s : List Char) : trimRight s = (trimLeft s.reverse).reverse := rfl

theorem exists_trimRight (s : List Char) :
    (∀ c, (trimRight s).getLast? = some c → isBlank c = false) ∧
      ∃ back, Blank back ∧ s = trimRight s ++ back := by
  obtain ⟨hfront, front, hblank, hs⟩ := exists_trimLeft s.reverse
  refine ⟨fun c hc => hfront c ?_, front.reverse, fun c hc => hblank c (List.mem_reverse.1 hc), ?_⟩
  · rwa [trimRight_eq, List.getLast?_reverse] at hc
  · rw [trimRight_eq, ← List.reverse_append, ← hs, List.reverse_reverse]

/-! ## Both ends -/

theorem Trimmed.trimRight_append {s back : List Char} (h : Trimmed s) (hback : Blank back) :
    trimRight (s ++ back) = s := by
  rw [trimRight_eq, List.reverse_append,
    trimLeft_append fun c hc => hback c (List.mem_reverse.1 hc),
    trimLeft_of_front h.reverse.front, List.reverse_reverse]

theorem trim_append {front s back : List Char} (hfront : Blank front) (h : Trimmed s)
    (hback : Blank back) : trim (front ++ s ++ back) = s := by
  rw [trim, List.append_assoc, trimLeft_append hfront]
  cases s with
  | nil =>
    -- Nothing but blanks: the left end already takes them all.
    have hnil : trimLeft back = [] := List.dropWhile_eq_nil_iff.2 hback
    rw [List.nil_append, hnil]
    rfl
  | cons c rest =>
    rw [trimLeft_of_front (by simpa using h.front c rfl)]
    exact h.trimRight_append hback

theorem trim_append_right {s back : List Char} (h : Trimmed s) (hback : Blank back) :
    trim (s ++ back) = s :=
  trim_append blank_nil h hback

theorem Trimmed.trim_eq {s : List Char} (h : Trimmed s) : trim s = s := by
  have htrim := trim_append_right h blank_nil
  rwa [List.append_nil] at htrim

/-- Trimming drops blanks at both ends, and none is left there. -/
theorem exists_trim (s : List Char) :
    Trimmed (trim s) ∧ ∃ front back, Blank front ∧ Blank back ∧ s = front ++ trim s ++ back := by
  obtain ⟨hfront, front, hblank, hs⟩ := exists_trimLeft s
  obtain ⟨hback, back, hblank', hs'⟩ := exists_trimRight (trimLeft s)
  refine ⟨⟨fun c hc => hfront c ?_, hback⟩, front, back, hblank, hblank', ?_⟩
  · rw [hs', ← trim, List.head?_append, hc]
    rfl
  · rw [trim, List.append_assoc, ← hs', ← hs]

theorem trimmed_trim (s : List Char) : Trimmed (trim s) := (exists_trim s).1

theorem mem_of_mem_trim {s : List Char} {c : Char} (h : c ∈ trim s) : c ∈ s := by
  obtain ⟨-, front, back, -, -, hs⟩ := exists_trim s
  rw [hs]
  simp [h]

theorem trim_cons {c : Char} (hc : isBlank c = true) (s : List Char) : trim (c :: s) = trim s := by
  rw [trim, trim, ← List.singleton_append, trimLeft_append (by simpa [Blank] using hc)]

theorem trim_concat {c : Char} (hc : isBlank c = true) (s : List Char) :
    trim (s ++ [c]) = trim s := by
  obtain ⟨htrimmed, front, back, hfront, hback, hs⟩ := exists_trim s
  have hback' : Blank (back ++ [c]) := by
    intro d hd
    rcases List.mem_append.1 hd with hd | hd
    · exact hback d hd
    · rwa [List.mem_singleton.1 hd]
  have hcut : s ++ [c] = front ++ trim s ++ (back ++ [c]) := by
    rw [← List.append_assoc, ← hs]
  rw [hcut]
  exact trim_append hfront htrimmed hback'

end ClientRoutes.Text
