import ClientRoutes.Description.TypeExpr
import ClientRoutes.Proofs.Casing.Names
import Mathlib.Data.List.SplitBy

/-
  The grammar that the text of a type is read with.

  A text is a row of names and marks; blanks keep names apart and are otherwise
  nothing. A union is a row of operands with bars between them, and an operand is
  a name, a record, a union in parentheses, or an operand with a pair of brackets
  behind it. So brackets bind tighter than bars. Parentheses leave no trace, and a
  union inside a union adds its members to it. A name is any run of characters
  that are neither blanks nor marks; which of them are identifiers, and what they
  name, is another matter.

  The level of nesting tells apart the bars of a union and those inside its
  operands: `climb` keeps it along the tokens, and stops at a bar on the ground.

  What is proved:
    1. `tokens_append_cons`, `tokens_mark` — a mark is a token wherever it stands.
    2. `Reads.climb` — the level of nesting along whatever can be read.
    3. `Reads.unique` — tokens are read in one way at most.
    4. `Reads.append` — two unions with a bar between them.
-/

namespace ClientRoutes.TypeExpr

open Text Casing

/-! ## Tokens -/

/-- A piece of the text of a type. -/
inductive Token where
  | name (text : List Char)
  | mark (c : Char)
  deriving DecidableEq, Repr

/-- Whether two neighbours are parts of one name. -/
def sameToken (c d : Char) : Bool := isNameChar c && isNameChar d

/-- The token a run of name characters or a single other character is. -/
def token? : List Char → Option Token
  | [] => none
  | c :: rest =>
    if isNameChar c then some (.name (c :: rest))
    else if isBlank c then none
    else some (.mark c)

/-- The tokens of a text. -/
def tokens (s : List Char) : List Token := (s.splitBy sameToken).filterMap token?

theorem tokens_of_isName {s : List Char} (hne : s ≠ []) (hs : IsName s) : tokens s = [.name s] := by
  have hchain : s.IsChain fun c d => sameToken c d = true := by
    apply List.Pairwise.isChain
    apply List.pairwise_of_forall_mem_list
    intro c hc d hd
    rw [sameToken, hs c hc, hs d hd]
    rfl
  obtain ⟨c, rest, rfl⟩ := List.exists_cons_of_ne_nil hne
  have htoken : token? (c :: rest) = some (.name (c :: rest)) := if_pos (hs c (by simp))
  rw [tokens, List.splitBy_of_isChain hne hchain, List.filterMap_cons_some htoken]
  rfl

/-- No name goes on across a mark. -/
theorem tokens_append_cons {c : Char} (hc : isNameChar c = false) (s t : List Char) :
    tokens (s ++ c :: t) = tokens s ++ tokens (c :: t) := by
  have hapart : ∀ d ∈ s.getLast?, sameToken d c = false := by
    intro d _
    rw [sameToken, hc, Bool.and_false]
  rw [tokens, List.splitBy_append_cons t hapart, List.filterMap_append]
  rfl

theorem tokens_cons {c : Char} (hc : isNameChar c = false) (s : List Char) :
    tokens (c :: s) = (token? [c]).toList ++ tokens s := by
  have hapart : ∀ d ∈ [c].getLast?, ∀ e ∈ s.head?, sameToken d e = false := by
    intro d hd e _
    obtain rfl : c = d := by simpa using hd
    rw [sameToken, hc, Bool.false_and]
  rw [tokens, ← List.singleton_append, List.splitBy_append hapart, List.filterMap_append]
  have hone : [c].splitBy sameToken = [[c]] := rfl
  rw [hone, List.filterMap_cons]
  cases token? [c] <;> rfl

theorem tokens_blank {c : Char} (hc : isBlank c = true) (s : List Char) :
    tokens (c :: s) = tokens s := by
  have hname : isNameChar c = false := by rw [isNameChar, hc]; rfl
  rw [tokens_cons hname, token?, hname, hc]
  rfl

theorem tokens_mark {c : Char} (hc : isNameChar c = false) (hblank : isBlank c = false)
    (s : List Char) : tokens (c :: s) = .mark c :: tokens s := by
  rw [tokens_cons hc, token?, hc, hblank]
  rfl

@[simp] theorem tokens_nil : tokens [] = [] := rfl

/-! ## Trees -/

/-- The members of a union; any other type is the only member of itself. -/
def members : TypeExpr → List TypeExpr
  | .union ts => ts
  | t => [t]

/-- The union of two types. -/
def join (t u : TypeExpr) : TypeExpr := .union (t.members ++ u.members)

/-- The union of some types. A single one is no union. -/
def unionOf : List TypeExpr → TypeExpr
  | [] => .union []
  | [t] => t
  | t :: ts => join t (unionOf ts)

theorem join_assoc (t u v : TypeExpr) : join (join t u) v = join t (join u v) := by
  simp only [join, members, List.append_assoc]

/-! ## Reading -/

/-- What is read: an operand, or a union of operands. -/
inductive Level where
  | operand
  | union
  deriving DecidableEq

/-- The tokens before the values of a record. -/
def recordFront : List Token :=
  [.name "Record".toList, .mark '<', .name "string".toList, .mark ',']

/-- Tokens that are read as a type. -/
@[mk_iff]
inductive Reads : Level → List Token → TypeExpr → Prop
  | name (text : List Char) : Reads .operand [.name text] (.name (String.ofList text))
  | record {ts : List Token} {t : TypeExpr} (h : Reads .union ts t) :
      Reads .operand (recordFront ++ ts ++ [.mark '>']) (.record t)
  | group {ts : List Token} {t : TypeExpr} (h : Reads .union ts t) :
      Reads .operand ([.mark '('] ++ ts ++ [.mark ')']) t
  | array {ts : List Token} {t : TypeExpr} (h : Reads .operand ts t) :
      Reads .operand (ts ++ [.mark '[', .mark ']']) (.array t)
  | one {ts : List Token} {t : TypeExpr} (h : Reads .operand ts t) : Reads .union ts t
  | more {ts us : List Token} {t u : TypeExpr} (h : Reads .operand ts t) (hs : Reads .union us u) :
      Reads .union (ts ++ .mark '|' :: us) (join t u)

/-- The type that a text is read as. -/
def Denotes (s : String) (t : TypeExpr) : Prop := Reads .union (tokens s.toList) t

theorem Reads.append {ts us : List Token} {t u : TypeExpr} (h : Reads .union ts t)
    (hu : Reads .union us u) : Reads .union (ts ++ .mark '|' :: us) (join t u) := by
  generalize hl : Level.union = l at h
  induction h with
  | name | record | group | array => cases hl
  | one h => exact .more h hu
  | more h _ _ ih =>
    rw [List.append_assoc, List.cons_append, join_assoc]
    exact .more h (ih hl)

/-! ## Levels of nesting -/

/-- The level behind a token, from the level before it. There is none where a bar
stands on the ground or a bracket closes what was not opened. -/
def rise (d : Nat) : Token → Option Nat
  | .mark '(' | .mark '<' => some (d + 1)
  | .mark ')' | .mark '>' => if d = 0 then none else some (d - 1)
  | .mark '|' => if d = 0 then none else some d
  | _ => some d

/-- The level behind some tokens, from the level before them. -/
def climb (d : Nat) (ts : List Token) : Option Nat := ts.foldlM rise d

theorem climb_append {d e : Nat} {ts : List Token} (h : climb d ts = some e) (us : List Token) :
    climb d (ts ++ us) = climb e us := by
  rw [climb] at h
  rw [climb, List.foldlM_append, h]
  rfl

theorem climb_bar_ground (ts : List Token) : climb 0 (.mark '|' :: ts) = none := rfl

/-- The level from which on the tokens can be read. -/
def Level.floor : Level → Nat
  | .operand => 0
  | .union => 1

/-- What is read ends on the level it began on. An operand is read from the
ground on, a union only above it. -/
theorem Reads.climb {l : Level} {ts : List Token} {t : TypeExpr} (h : Reads l ts t) :
    ∀ d, l.floor ≤ d → climb d ts = some d := by
  induction h with
  | name text => exact fun d _ => rfl
  | @record ts t _ ih =>
    intro d _
    have hfront : TypeExpr.climb d recordFront = some (d + 1) := rfl
    have hinside := ih (d + 1) (Nat.le_add_left 1 d)
    rw [List.append_assoc, climb_append hfront, climb_append hinside]
    rfl
  | @group ts t _ ih =>
    intro d _
    have hfront : TypeExpr.climb d [.mark '('] = some (d + 1) := rfl
    have hinside := ih (d + 1) (Nat.le_add_left 1 d)
    rw [List.append_assoc, climb_append hfront, climb_append hinside]
    rfl
  | array _ ih =>
    intro d hd
    rw [climb_append (ih d hd)]
    rfl
  | one _ ih => exact fun d _ => ih d (Nat.zero_le d)
  | @more ts us t u _ _ ih ihs =>
    intro d hd
    have hbar : TypeExpr.climb d (.mark '|' :: us) = TypeExpr.climb d us := by
      obtain ⟨e, rfl⟩ := Nat.exists_eq_add_of_le' hd
      rfl
    rw [climb_append (ih d (Nat.zero_le d)), hbar]
    exact ihs d hd

/-- An operand has no bar behind a first operand. -/
theorem Reads.ne_bar {ts us : List Token} {t : TypeExpr} (h : Reads .operand ts t)
    {vs : List Token} {v : TypeExpr} (hv : Reads .operand vs v) : ts ≠ vs ++ .mark '|' :: us := by
  rintro rfl
  have hground := h.climb 0 (Nat.le_refl 0)
  rw [climb_append (hv.climb 0 (Nat.le_refl 0)), climb_bar_ground] at hground
  cases hground

/-- The bar behind the first operand of a union is always the same. -/
theorem Reads.split {ts us vs ws : List Token} {t v : TypeExpr} (h : Reads .operand ts t)
    (hv : Reads .operand vs v) (heq : ts ++ .mark '|' :: us = vs ++ .mark '|' :: ws) :
    ts = vs ∧ us = ws := by
  rcases List.append_eq_append_iff.1 heq with ⟨as, hvs, hbar⟩ | ⟨bs, hts, hbar⟩
  · cases as with
    | nil => exact ⟨by simpa using hvs.symm, by simpa using hbar⟩
    | cons a as =>
      obtain ⟨rfl, -⟩ := List.cons.inj hbar
      exact absurd hvs (hv.ne_bar h)
  · cases bs with
    | nil => exact ⟨by simpa using hts, by simpa using hbar.symm⟩
    | cons b bs =>
      obtain ⟨rfl, -⟩ := List.cons.inj hbar
      exact absurd hts (h.ne_bar hv)

/-! ## One reading -/

/-- Tokens are read in one way at most: the last token of an operand tells what it
is, and the first bar on the ground where the first operand of a union ends. -/
theorem Reads.unique {l : Level} {ts : List Token} {t u : TypeExpr} (h : Reads l ts t)
    (hu : Reads l ts u) : t = u := by
  generalize hts : ts = us at hu
  induction h generalizing u us with
  | name text =>
    cases hu with
    | name => cases hts; rfl
    | record | group | array => simpa [recordFront, List.getLast?_cons] using congrArg List.getLast? hts
  | record _ ih =>
    cases hu with
    | record hu =>
      rw [List.append_cancel_right_eq, List.append_cancel_left_eq] at hts
      rw [ih _ hts hu]
    | name | group | array => simpa [List.getLast?_cons] using congrArg List.getLast? hts
  | group _ ih =>
    cases hu with
    | group hu =>
      rw [List.append_cancel_right_eq, List.append_cancel_left_eq] at hts
      exact ih _ hts hu
    | name | record | array => simpa [List.getLast?_cons] using congrArg List.getLast? hts
  | array _ ih =>
    cases hu with
    | array hu =>
      rw [List.append_cancel_right_eq] at hts
      rw [ih _ hts hu]
    | name | record | group => simpa [List.getLast?_cons] using congrArg List.getLast? hts
  | one h ih =>
    cases hu with
    | one hu => exact ih _ hts hu
    | more hu => exact absurd hts (h.ne_bar hu)
  | more h _ ih ihs =>
    cases hu with
    | one hu => exact absurd hts.symm (hu.ne_bar h)
    | more hu hus =>
      obtain ⟨hfirst, hrest⟩ := h.split hu hts
      rw [ih _ hfirst hu, ihs _ hrest hus]

end ClientRoutes.TypeExpr
