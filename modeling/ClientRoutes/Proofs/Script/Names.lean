import ClientRoutes.Proofs.Casing.Names

/-
  The names that a piece of generated code refers to.

  Code is read character by character. A run of name characters is a name; what
  stands between quotes is a text, in which a backslash takes the next character
  with it. A name right before a colon is the key of a property and refers to
  nothing.

  What is proved:
    1. `read_append` — code is read piece by piece.
    2. `read_name`, `read_quoted` — a name, and a text between quotes.
    3. `names_intercalate` — the names of a list with commas between them.
-/

namespace ClientRoutes.Script

open Casing

/-- Where the reader of some code stands. -/
inductive State where
  | between
  /-- Inside a name, of which this has been read. -/
  | inName (front : List Char)
  | inQuotes (quote : Char)
  /-- Behind a backslash inside quotes. -/
  | escaping (quote : Char)
  deriving DecidableEq, Repr

/-- Whether a text begins or ends with a character. -/
def isQuote (c : Char) : Bool := c == '"' || c == '\''

/-- Where a character leads that does not go on with anything. -/
def enter (c : Char) : State :=
  if isNameChar c then .inName [c] else if isQuote c then .inQuotes c else .between

/-- The name that is complete with a character, and where the character leads. -/
def step : State → Char → List (List Char) × State
  | .between, c => ([], enter c)
  | .inName front, c =>
    if isNameChar c then ([], .inName (front ++ [c]))
    else (if c = ':' then [] else [front], enter c)
  | .inQuotes quote, c =>
    ([], if c = quote then .between else if c = '\\' then .escaping quote else .inQuotes quote)
  | .escaping quote, _ => ([], .inQuotes quote)

/-- The names that are complete in some code, and where it leads. -/
def read : State → List Char → List (List Char) × State
  | s, [] => ([], s)
  | s, c :: rest => ((step s c).1 ++ (read (step s c).2 rest).1, (read (step s c).2 rest).2)

/-- The name that the end of the code completes. -/
def State.pending : State → List (List Char)
  | .inName front => [front]
  | _ => []

/-- The names that some code refers to, in order. -/
def names (code : String) : List String :=
  let (complete, s) := read .between code.toList
  (complete ++ s.pending).map String.ofList

/-- Whether a character of ASCII may stand in an identifier. -/
def isIdentifierChar (c : Char) : Bool := c.isAlphanum || c == '_' || c == '$'

/-- Whether a text of ASCII is an identifier: there is something, no digit comes first,
and only such characters follow. -/
def isIdentifier (s : List Char) : Bool :=
  s.head?.any (fun c => !c.isDigit) && s.all isIdentifierChar

theorem read_append {s t u : State} {code rest : List Char} {ns ms : List (List Char)}
    (hcode : read s code = (ns, t)) (hrest : read t rest = (ms, u)) :
    read s (code ++ rest) = (ns ++ ms, u) := by
  induction code generalizing s ns with
  | nil =>
    obtain ⟨rfl, rfl⟩ := Prod.mk.inj hcode
    exact hrest
  | cons c code ih =>
    obtain ⟨rfl, ht⟩ := Prod.mk.inj hcode
    have hread := ih (Prod.ext rfl ht)
    rw [List.cons_append, read, hread, List.append_assoc]

theorem read_inName {name : List Char} (h : IsName name) (front : List Char) :
    read (.inName front) name = ([], .inName (front ++ name)) := by
  induction name generalizing front with
  | nil => rw [List.append_nil]; rfl
  | cons c name ih =>
    obtain ⟨hc, hname⟩ := List.forall_mem_cons.1 h
    have hstep : step (.inName front) c = ([], .inName (front ++ [c])) := if_pos hc
    rw [read, hstep, ih hname, List.append_assoc]
    rfl

theorem read_name {name : List Char} (hne : name ≠ []) (h : IsName name) :
    read .between name = ([], .inName name) := by
  obtain ⟨c, rest, rfl⟩ := List.exists_cons_of_ne_nil hne
  obtain ⟨hc, hrest⟩ := List.forall_mem_cons.1 h
  have hstep : step .between c = ([], .inName [c]) := by
    rw [step, enter, if_pos hc]
  rw [read, hstep, read_inName hrest]
  rfl

/-- Whether a character stands for itself between quotes. -/
def isPlain (quote c : Char) : Bool := c != quote && c != '\\'

/-- A text without quotes and backslashes stays between its quotes. -/
theorem read_quoted {quote : Char} {text : List Char} (h : text.all (isPlain quote) = true) :
    read (.inQuotes quote) text = ([], .inQuotes quote) := by
  induction text with
  | nil => rfl
  | cons c text ih =>
    rw [List.all_cons, Bool.and_eq_true, isPlain, Bool.and_eq_true, bne_iff_ne, bne_iff_ne] at h
    obtain ⟨⟨hquote, hbackslash⟩, htext⟩ := h
    have hstep : step (.inQuotes quote) c = ([], .inQuotes quote) := by
      rw [step, if_neg hquote, if_neg hbackslash]
    rw [read, hstep, ih htext]
    rfl

/-- Names with commas between them: all but the last are complete. -/
theorem read_intercalate {ns : List String} (h : ∀ n ∈ ns, n.toList ≠ [] ∧ IsName n.toList) :
    ∃ complete s, read .between (", ".intercalate ns).toList = (complete, s) ∧
      complete ++ s.pending = ns.map String.toList := by
  induction ns with
  | nil => exact ⟨[], .between, rfl, rfl⟩
  | cons n rest ih =>
    obtain ⟨⟨hne, hname⟩, hrest⟩ := List.forall_mem_cons.1 h
    by_cases hnil : rest = []
    · subst hnil
      refine ⟨[], .inName n.toList, ?_, rfl⟩
      rw [String.intercalate_singleton, read_name hne hname]
    · obtain ⟨complete, s, hread, hpending⟩ := ih hrest
      have hcomma : read (.inName n.toList) ", ".toList = ([n.toList], .between) := rfl
      refine ⟨n.toList :: complete, s, ?_, by rw [List.cons_append, hpending, List.map_cons]⟩
      rw [String.intercalate_cons_of_ne_nil hnil, String.toList_append, String.toList_append]
      exact read_append (read_append (read_name hne hname) hcomma) hread

theorem names_intercalate {ns : List String} (h : ∀ n ∈ ns, n.toList ≠ [] ∧ IsName n.toList) :
    names (", ".intercalate ns) = ns := by
  obtain ⟨complete, s, hread, hpending⟩ := read_intercalate h
  rw [names, hread]
  dsimp only
  rw [hpending, List.map_map]
  simp [Function.comp_def]

end ClientRoutes.Script
