import ClientRoutes.Text.Digit
import Mathlib.Data.List.Basic

/-
  The literals in a piece of generated code.

  Code is read character by character. A quote begins a literal, which goes on to the
  next quote of its kind that is not escaped; a backslash begins an escape sequence, and
  a line may not end inside a literal. What is no literal stays as it is written, one
  mark for each character. Code with a backtick or a slash outside of literals is not
  read, since templates, comments and patterns begin with these. Neither are escapes of
  half a surrogate pair, which are no characters.

  What is proved:
    1. `exists_text_of_read?` — a quote inside a literal stands behind its escape, so in
       the value it comes no later than in the code.
    2. `read?_quoted_iff` — the texts that are their own value between quotes.
    3. `read?_render_iff` — code that is put together from pieces is read as these
       pieces exactly if all of them are faithful.
-/

namespace ClientRoutes.Script.Literal

/-! ## Reading -/

/-- The quotes of a literal. -/
inductive Quote where
  | single
  | double
  deriving DecidableEq, Repr

/-- The character that begins and ends a literal. -/
def Quote.char : Quote → Char
  | .single => '\''
  | .double => '"'

/-- Which part of an escape sequence has been read inside a literal. -/
inductive Escape where
  | clear
  /-- A backslash. -/
  | begun
  /-- A backslash and a zero, which no digit may follow. -/
  | zero
  /-- A backslash and a carriage return, with which a line feed goes. -/
  | carriage
  /-- Digits of a code point, of which one more and some others are left. -/
  | hex (left code : Nat)
  /-- A backslash and a `u`. -/
  | unicode
  /-- Digits of a code point behind a brace. -/
  | braced (code : Option Nat)
  deriving DecidableEq, Repr

namespace Escape

/-- Whether a quote may end the literal here. -/
def isClear : Escape → Bool
  | .clear | .zero | .carriage => true
  | _ => false

/-- A code point adds its character. -/
def character? (code : Nat) : Option (Option Char × Escape) :=
  if code.isValidChar then some (Char.ofNat code, .clear) else none

/-- What a character adds that stands outside of escape sequences. -/
def plain? (c : Char) : Option (Option Char × Escape) :=
  if c = '\n' ∨ c = '\r' then none
  else if c = '\\' then some (none, .begun)
  else some (c, .clear)

/-- What a character adds right behind a backslash. Line ends are left out, digits other
than zero are refused, and what has no meaning stands for itself. -/
def begin? : Char → Option (Option Char × Escape)
  | 'b' => some ('\x08', .clear)
  | 'f' => some ('\x0c', .clear)
  | 'n' => some ('\n', .clear)
  | 'r' => some ('\r', .clear)
  | 't' => some ('\t', .clear)
  | 'v' => some ('\x0b', .clear)
  | '0' => some ('\x00', .zero)
  | 'x' => some (none, .hex 1 0)
  | 'u' => some (none, .unicode)
  | '\n' | '\u2028' | '\u2029' => some (none, .clear)
  | '\r' => some (none, .carriage)
  | c => if Text.isDecimal c then none else some (c, .clear)

/-- What the next character of a literal adds to its value, which is at most one
character, and where it leads. -/
def next? : Escape → Char → Option (Option Char × Escape)
  | .clear, c => plain? c
  | .begun, c => begin? c
  | .zero, c => if Text.isDecimal c then none else plain? c
  | .carriage, c => if c = '\n' then some (none, .clear) else plain? c
  | .hex left code, c => (Text.hexValue? c).bind fun v =>
    match left with
    | 0 => character? (code * 16 + v)
    | left + 1 => some (none, .hex left (code * 16 + v))
  | .unicode, c =>
    if c = '\x7b' then some (none, .braced none)
    else (Text.hexValue? c).map fun v => (none, .hex 2 v)
  | .braced code, c =>
    if c = '\x7d' then code.bind character?
    else (Text.hexValue? c).map fun v => (none, .braced (some (code.getD 0 * 16 + v)))

end Escape

/-- Where the reader of some code stands. -/
inductive State where
  | between
  /-- Inside a literal, of whose value this has been read. -/
  | inside (quote : Quote) (front : List Char) (escape : Escape)
  deriving DecidableEq, Repr

/-- What code consists of. -/
inductive Token where
  /-- A literal with its value. -/
  | text (value : List Char)
  /-- Any other character. -/
  | mark (c : Char)
  deriving DecidableEq, Repr

/-- The tokens that are complete with a character, and where the character leads. -/
def step? : State → Char → Option (List Token × State)
  | .between, c =>
    if c = '\'' then some ([], .inside .single [] .clear)
    else if c = '"' then some ([], .inside .double [] .clear)
    else if c = '`' ∨ c = '/' then none
    else some ([.mark c], .between)
  | .inside quote front escape, c =>
    if c = quote.char ∧ escape.isClear = true then some ([.text front], .between)
    else (escape.next? c).map fun (added, escape) =>
      ([], .inside quote (front ++ added.toList) escape)

/-- The tokens of some code from a state on, if it does not end inside a literal. -/
def read? : State → List Char → Option (List Token)
  | .between, [] => some []
  | .inside .., [] => none
  | s, c :: rest => (step? s c).bind fun (tokens, s) => (read? s rest).map (tokens ++ ·)

/-- The tokens of some code. -/
def tokens? (code : String) : Option (List Token) := read? .between code.toList

theorem read?_cons (s : State) (c : Char) (rest : List Char) :
    read? s (c :: rest) =
      (step? s c).bind fun r => (read? r.2 rest).map (r.1 ++ ·) := by
  cases s <;> rfl

/-! ## One character -/

/-- A quote that does not end the literal adds itself. -/
theorem added_of_quote {escape e : Escape} {quote : Quote} {added : Option Char}
    (hclear : escape.isClear = false) (h : escape.next? quote.char = some (added, e)) :
    added = some quote.char := by
  cases quote <;> cases escape <;> simp [Escape.isClear, Escape.next?, Escape.begin?,
    Quote.char, Text.hexValue?, Text.isDecimal, Text.decimalValue?] at hclear h ⊢ <;>
    exact h.1.symm

/-- The rest of a literal: a quote in it stands behind its escape, so that in the value
it comes no later than in the code. -/
theorem exists_text_of_read? {quote : Quote} {front code : List Char} {escape : Escape}
    {tokens : List Token} (h : read? (.inside quote front escape) code = some tokens) :
    ∃ value rest, tokens = .text (front ++ value) :: rest ∧
      value.idxOf quote.char ≤ code.idxOf quote.char := by
  induction code generalizing front escape tokens with
  | nil => cases h
  | cons c code ih =>
    rw [read?_cons, Option.bind_eq_some_iff] at h
    obtain ⟨⟨complete, next⟩, hstep, h⟩ := h
    obtain ⟨later, hread, rfl⟩ := Option.map_eq_some_iff.1 h
    by_cases hend : c = quote.char ∧ escape.isClear = true
    · rw [step?, if_pos hend] at hstep
      obtain ⟨rfl, rfl⟩ := Prod.mk.inj (Option.some.inj hstep)
      exact ⟨[], later, by simp, Nat.zero_le _⟩
    · rw [step?, if_neg hend] at hstep
      obtain ⟨⟨added, after⟩, hnext, hstep⟩ := Option.map_eq_some_iff.1 hstep
      obtain ⟨rfl, rfl⟩ := Prod.mk.inj hstep
      obtain ⟨value, rest, rfl, hle⟩ := ih hread
      refine ⟨added.toList ++ value, rest, by simp, ?_⟩
      by_cases hc : c = quote.char
      · subst hc
        have hclear : escape.isClear = false := by simpa using hend
        rw [added_of_quote hclear hnext]
        simp
      · rw [List.idxOf_cons_ne _ hc]
        cases added with
        | none => exact Nat.le_succ_of_le hle
        | some d =>
          by_cases hd : d = quote.char
          · subst hd
            simp
          · rw [Option.toList_some, List.singleton_append, List.idxOf_cons_ne _ hd]
            exact Nat.succ_le_succ hle

/-! ## A whole literal -/

/-- Whether a text is its own value between quotes: it has no such quote, no backslash
and no line end. -/
def Verbatim (quote : Quote) (s : List Char) : Prop :=
  ∀ c ∈ s, c ∉ [quote.char, '\\', '\n', '\r']

instance (quote : Quote) (s : List Char) : Decidable (Verbatim quote s) :=
  List.decidableBAll (fun c : Char => c ∉ [quote.char, '\\', '\n', '\r']) s

theorem verbatim_cons {quote : Quote} {c : Char} {s : List Char} :
    Verbatim quote (c :: s) ↔ c ∉ [quote.char, '\\', '\n', '\r'] ∧ Verbatim quote s :=
  List.forall_mem_cons

theorem char_ne_backslash (quote : Quote) : quote.char ≠ '\\' := by
  cases quote <;> decide

/-- The literals that are read as the text between their quotes. -/
theorem read?_quoted_iff {quote : Quote} (front : List Char) {text code : List Char}
    {tokens : List Token} :
    read? (.inside quote front .clear) (text ++ quote.char :: code) =
        some (.text (front ++ text) :: tokens) ↔
      Verbatim quote text ∧ read? .between code = some tokens := by
  induction text generalizing front with
  | nil =>
    have hend : step? (.inside quote front .clear) quote.char = some ([.text front], .between) :=
      if_pos ⟨rfl, rfl⟩
    rw [List.nil_append, List.append_nil, read?_cons, hend, Option.bind_some]
    simp [Verbatim]
  | cons c text ih =>
    rw [verbatim_cons, List.cons_append]
    by_cases hquote : c = quote.char
    · -- The literal ends too early.
      subst hquote
      have hend : step? (.inside quote front .clear) quote.char = some ([.text front], .between) :=
        if_pos ⟨rfl, rfl⟩
      rw [read?_cons, hend, Option.bind_some]
      simp
    have hstep : step? (.inside quote front .clear) c = (Escape.plain? c).map fun r =>
        ([], .inside quote (front ++ r.1.toList) r.2) :=
      if_neg fun h => hquote h.1
    by_cases hline : c = '\n' ∨ c = '\r'
    · rw [read?_cons, hstep, Escape.plain?, if_pos hline]
      rcases hline with rfl | rfl <;> simp
    by_cases hbackslash : c = '\\'
    · -- The first backslash of the value would have to come from an escape sequence, so
      -- that the next quote would come later in it than in the code.
      subst hbackslash
      refine iff_of_false (fun h => ?_) fun h => h.1.1 (by simp)
      rw [read?_cons, hstep, Escape.plain?, if_neg (by decide), if_pos rfl] at h
      obtain ⟨later, hread, h⟩ := Option.map_eq_some_iff.1 h
      obtain ⟨value, rest, rfl, hle⟩ := exists_text_of_read? hread
      obtain ⟨hvalue, -⟩ := List.cons.inj h
      have hvalue : value = '\\' :: text := by simpa using hvalue
      have hcode : (text ++ quote.char :: code).idxOf quote.char = text.idxOf quote.char := by
        by_cases hmem : quote.char ∈ text
        · exact List.idxOf_append_of_mem hmem
        · rw [List.idxOf_append_of_notMem hmem, List.idxOf_cons_self, List.idxOf_of_notMem hmem,
            Nat.add_zero]
      rw [hvalue, List.idxOf_cons_ne _ (char_ne_backslash quote).symm, hcode] at hle
      exact absurd hle (by omega)
    · have hnext : Escape.plain? c = some (some c, .clear) := by
        rw [Escape.plain?, if_neg hline, if_neg hbackslash]
      have hplain : c ∉ [quote.char, '\\', '\n', '\r'] := by
        simpa [hquote, hbackslash] using hline
      have hfront : front ++ c :: text = front ++ [c] ++ text := by simp
      rw [read?_cons, hstep, hnext, hfront, and_iff_right hplain, ← ih (front ++ [c])]
      simp

/-! ## Pieces of code -/

/-- A piece of code with at most one literal. -/
inductive Piece where
  | code (s : List Char)
  | literal (quote : Quote) (s : List Char)
  deriving DecidableEq, Repr

namespace Piece

/-- How a piece is written. -/
def render : Piece → List Char
  | .code s => s
  | .literal quote s => quote.char :: s ++ [quote.char]

/-- What a piece is meant to be read as. -/
def tokens : Piece → List Token
  | .code s => s.map .mark
  | .literal _ s => [.text s]

/-- Code without literals, and a literal that is its own value. -/
def Faithful : Piece → Prop
  | .code s => ∀ c ∈ s, c ∉ ['"', '\'', '`', '/']
  | .literal quote s => Verbatim quote s

instance : DecidablePred Faithful
  | .code s => List.decidableBAll (fun c : Char => c ∉ ['"', '\'', '`', '/']) s
  | .literal quote s => inferInstanceAs (Decidable (Verbatim quote s))

end Piece

/-- Outside of literals a quote is no mark. -/
theorem read?_mark_iff {c : Char} {code : List Char} {tokens : List Token} :
    read? .between (c :: code) = some (.mark c :: tokens) ↔
      c ∉ ['"', '\'', '`', '/'] ∧ read? .between code = some tokens := by
  have hinside : ∀ quote, read? (.inside quote [] .clear) code ≠ some (.mark c :: tokens) := by
    intro quote h
    obtain ⟨value, rest, h, -⟩ := exists_text_of_read? h
    cases h
  rw [read?_cons, step?]
  by_cases hsingle : c = '\''
  · subst hsingle
    simp [hinside]
  by_cases hdouble : c = '"'
  · subst hdouble
    simp [hinside]
  by_cases hother : c = '`' ∨ c = '/'
  · rw [if_neg hsingle, if_neg hdouble, if_pos hother]
    rcases hother with rfl | rfl <;> simp
  · rw [if_neg hsingle, if_neg hdouble, if_neg hother]
    simp [hsingle, hdouble, not_or.1 hother]

theorem read?_piece_iff (p : Piece) {code : List Char} {tokens : List Token} :
    read? .between (p.render ++ code) = some (p.tokens ++ tokens) ↔
      p.Faithful ∧ read? .between code = some tokens := by
  cases p with
  | code s =>
    induction s with
    | nil => simp [Piece.render, Piece.tokens, Piece.Faithful]
    | cons c s ih =>
      have hmark : read? .between (Piece.render (.code (c :: s)) ++ code) =
          some (Piece.tokens (.code (c :: s)) ++ tokens) ↔ _ := read?_mark_iff
      rw [hmark]
      exact (and_congr_right fun _ => ih).trans (by simp [Piece.Faithful, and_assoc])
  | literal quote s =>
    have hopen : step? .between quote.char = some ([], .inside quote [] .clear) := by
      cases quote <;> rfl
    have hrender : Piece.render (.literal quote s) ++ code =
        quote.char :: (s ++ quote.char :: code) := by
      simp [Piece.render]
    rw [hrender, read?_cons, hopen, Option.bind_some, Piece.Faithful,
      ← read?_quoted_iff []]
    simp [Piece.tokens]

/-- Code that is put together from pieces is read as these pieces exactly if all of them
are faithful. -/
theorem read?_render_iff (ps : List Piece) :
    read? .between (ps.flatMap Piece.render) = some (ps.flatMap Piece.tokens) ↔
      ∀ p ∈ ps, p.Faithful := by
  induction ps with
  | nil => simp [read?]
  | cons p ps ih =>
    rw [List.flatMap_cons, List.flatMap_cons, read?_piece_iff, ih, List.forall_mem_cons]

end ClientRoutes.Script.Literal
