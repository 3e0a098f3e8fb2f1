import ClientRoutes.Proofs.Call.SchemaNames
import ClientRoutes.Proofs.Script.Literals

/-
  The cases of a dispatch.

  The expression that picks the schema of a variant is read back: from its tokens, case
  by case. The key of a case has to be one that an object literal can have without
  quotes; the value that it is compared with is that of a literal. Nothing is escaped
  where the expression is written, so both depend on what the document says.

  What is proved:
    1. `upTo?_eq_some_iff`, `case?_eq_some_iff`, `cases?_eq_some_iff` — what is read as
       cases is how these cases are written.
    2. `tokens?_dispatch_iff` — when the literals of a dispatch are the values of the
       document.
    3. `dispatch?_dispatch_iff` — when the cases of a dispatch are those of the document.
-/

namespace ClientRoutes

namespace Script

/-! ## Keys -/

/-- What counts as a letter outside of ASCII, and which numbers are written as they are
printed. -/
structure Lexicon where
  begins : Char → Bool
  continues : Char → Bool
  isNumeral : List Char → Bool

namespace Lexicon

/-- Whether a character may begin a name. -/
def isFirst (lexicon : Lexicon) (c : Char) : Bool :=
  isIdentifierChar c && !c.isDigit || 128 ≤ c.toNat && lexicon.begins c

/-- Whether a character may go on with a name. -/
def isNext (lexicon : Lexicon) (c : Char) : Bool :=
  isIdentifierChar c || 128 ≤ c.toNat && lexicon.continues c

/-- Whether a text is a name. -/
def isName (lexicon : Lexicon) : List Char → Bool
  | [] => false
  | c :: rest => lexicon.isFirst c && rest.all lexicon.isNext

/-- Whether a text is a number: letters, digits, dots and signs as the lexicon has it. -/
def isNumber (lexicon : Lexicon) (s : List Char) : Bool :=
  s.all (fun c => c.isAlphanum || c == '.' || c == '+' || c == '-') && lexicon.isNumeral s

/-- Whether a text without quotes is a key of its own name in an object literal. The
name `__proto__` is none, since it stands for the prototype of the object there. -/
def isKey (lexicon : Lexicon) (s : List Char) : Bool :=
  (lexicon.isName s || lexicon.isNumber s) && s != "__proto__".toList

/-- No letters outside of ASCII, and whole numbers without leading zeros. -/
def ascii : Lexicon where
  begins _ := false
  continues _ := false
  isNumeral s := s == ['0'] || s.all Char.isDigit && s.head?.any (· != '0')

/-- A key has neither quotes nor a colon. -/
theorem not_mem_of_isKey {lexicon : Lexicon} {s : List Char} (h : lexicon.isKey s = true) :
    ∀ c ∈ s, c ∉ ['"', '\'', '`', '/'] ++ [':'] := by
  have hfirst : (['"', '\'', '`', '/'] ++ [':']).all (fun c => !lexicon.isFirst c) = true := rfl
  have hnext : (['"', '\'', '`', '/'] ++ [':']).all (fun c => !lexicon.isNext c) = true := rfl
  have hdigit : (['"', '\'', '`', '/'] ++ [':']).all
      (fun c => !(c.isAlphanum || c == '.' || c == '+' || c == '-')) = true := rfl
  rw [List.all_eq_true] at hfirst hnext hdigit
  intro c hc hmem
  rw [isKey, Bool.and_eq_true, Bool.or_eq_true] at h
  rcases h.1 with hname | hnumber
  · cases s with
    | nil => cases hc
    | cons d rest =>
      rw [isName, Bool.and_eq_true, List.all_eq_true] at hname
      rcases List.mem_cons.1 hc with rfl | hc
      · simpa [hname.1] using hfirst c hmem
      · simpa [hname.2 c hc] using hnext c hmem
  · rw [isNumber, Bool.and_eq_true, List.all_eq_true] at hnumber
    simpa [hnumber.1 c hc] using hdigit c hmem

end Lexicon

/-! ## Reading cases -/

open Literal

/-- The marks that a text consists of. -/
def marks (s : String) : List Token := s.toList.map .mark

/-- What follows some marks. -/
def behind? (front : String) (tokens : List Token) : Option (List Token) :=
  (marks front).isPrefixOf? tokens

/-- The marks in front of a character, and what follows that character. -/
def upTo? (stop : Char) : List Token → Option (List Char × List Token)
  | [] => none
  | .text _ :: _ => none
  | .mark c :: rest =>
    if c = stop then some ([], rest) else (upTo? stop rest).map fun (s, rest) => (c :: s, rest)

/-- The value of a literal, and what follows it. -/
def literal? : List Token → Option (List Char × List Token)
  | .text value :: rest => some (value, rest)
  | _ => none

/-- The values of all literals. -/
def texts (tokens : List Token) : List (List Char) :=
  tokens.filterMap fun
    | .text value => some value
    | .mark _ => none

/-- One case of a dispatch: the key and the value of its object, and the schema that it
gives. -/
structure Case where
  key : List Char
  value : List Char
  schema : List Char
  deriving DecidableEq, Repr

/-- The end of a dispatch. -/
def otherwise : String := ".otherwise(()=>null)"

/-- Reads a case at the front of some tokens. -/
def case? (lexicon : Lexicon) (tokens : List Token) : Option (Case × List Token) := do
  let rest ← behind? ".with(\x7b " tokens
  let (key, rest) ← upTo? ':' rest
  let (value, rest) ← (behind? " " rest).bind literal?
  let (schema, rest) ← (behind? " \x7d, () => " rest).bind (upTo? ')')
  if lexicon.isKey key then some (⟨key, value, schema⟩, rest) else none

/-- Reads a number of cases and the end of a dispatch. -/
def cases? (lexicon : Lexicon) : Nat → List Token → Option (List Case)
  | 0, tokens => if tokens = marks otherwise then some [] else none
  | n + 1, tokens => do
    let (c, rest) ← case? lexicon tokens
    let cs ← cases? lexicon n rest
    return c :: cs

/-- Reads a dispatch: what it looks at and the cases, of which there are as many as
literals. -/
def dispatch? (lexicon : Lexicon) (code : String) : Option (List Char × List Case) := do
  let tokens ← tokens? code
  let rest ← behind? "match(" tokens
  let (subject, rest) ← upTo? ')' rest
  let cs ← cases? lexicon (texts rest).length rest
  return (subject, cs)

/-- The pieces that a case is written with. -/
def Case.pieces (c : Case) : List Piece :=
  [.code ".with(\x7b ".toList, .code c.key, .code [':', ' '], .literal .double c.value,
    .code " \x7d, () => ".toList, .code c.schema, .code [')']]

/-- How a case is meant to be read. -/
def Case.tokens (c : Case) : List Token := c.pieces.flatMap Piece.tokens

/-- The pieces that a dispatch is written with. -/
def dispatchPieces (subject : List Char) (cs : List Case) : List Piece :=
  [.code "match(".toList, .code subject, .code [')']] ++ cs.flatMap Case.pieces ++
    [.code otherwise.toList]

theorem behind?_eq_some_iff {front : String} {tokens rest : List Token} :
    behind? front tokens = some rest ↔ tokens = marks front ++ rest := by
  rw [behind?, List.isPrefixOf?_eq_some_iff_append_eq, eq_comm]

theorem upTo?_eq_some_iff {stop : Char} {tokens rest : List Token} {s : List Char} :
    upTo? stop tokens = some (s, rest) ↔
      stop ∉ s ∧ tokens = s.map .mark ++ .mark stop :: rest := by
  induction tokens generalizing s with
  | nil => simp [upTo?]
  | cons token tokens ih =>
    cases token with
    | text value => cases s <;> simp [upTo?]
    | mark c =>
      rw [upTo?]
      by_cases hc : c = stop
      · subst hc
        cases s with
        | nil => simp [eq_comm]
        | cons d s => simp +contextual [eq_comm]
      · rw [if_neg hc]
        cases s with
        | nil => simp [hc]
        | cons d s =>
          simp only [Option.map_eq_some_iff, Prod.mk.injEq, List.cons.injEq, List.map_cons,
            List.cons_append, Token.mark.injEq, List.mem_cons, not_or]
          constructor
          · rintro ⟨⟨s', rest'⟩, h, ⟨rfl, rfl⟩, rfl⟩
            obtain ⟨hs, htokens⟩ := ih.1 h
            exact ⟨⟨Ne.symm hc, hs⟩, rfl, htokens⟩
          · rintro ⟨⟨-, hs⟩, rfl, htokens⟩
            exact ⟨(s, rest), ih.2 ⟨hs, htokens⟩, ⟨rfl, rfl⟩, rfl⟩

theorem literal?_eq_some_iff {tokens rest : List Token} {value : List Char} :
    literal? tokens = some (value, rest) ↔ tokens = .text value :: rest := by
  unfold literal?
  split <;> simp_all

/-- The parts of a case that end with a character do not have it. -/
structure Case.Fits (lexicon : Lexicon) (c : Case) : Prop where
  isKey : lexicon.isKey c.key = true
  not_mem_schema : ')' ∉ c.schema

theorem case?_eq_some_iff {lexicon : Lexicon} {tokens rest : List Token} {c : Case} :
    case? lexicon tokens = some (c, rest) ↔ c.Fits lexicon ∧ tokens = c.tokens ++ rest := by
  have htokens : c.tokens ++ rest = marks ".with(\x7b " ++ (c.key.map .mark ++ .mark ':' ::
      (marks " " ++ .text c.value :: (marks " \x7d, () => " ++
        (c.schema.map .mark ++ .mark ')' :: rest)))) := by
    simp [Case.tokens, Case.pieces, Piece.tokens, marks]
  rw [htokens]
  constructor
  · intro h
    obtain ⟨rest₁, h₁, h⟩ := Option.bind_eq_some_iff.1 h
    obtain ⟨⟨key, rest₂⟩, h₂, h⟩ := Option.bind_eq_some_iff.1 h
    obtain ⟨⟨value, rest₄⟩, h₃, h⟩ := Option.bind_eq_some_iff.1 h
    obtain ⟨rest₃, h₃, h₄⟩ := Option.bind_eq_some_iff.1 h₃
    obtain ⟨⟨schema, rest₆⟩, h₅, h⟩ := Option.bind_eq_some_iff.1 h
    obtain ⟨rest₅, h₅, h₆⟩ := Option.bind_eq_some_iff.1 h₅
    by_cases hkey : lexicon.isKey key = true
    · dsimp only at h
      rw [if_pos hkey] at h
      obtain ⟨rfl, rfl⟩ := Prod.mk.inj (Option.some.inj h)
      obtain rfl := behind?_eq_some_iff.1 h₁
      obtain ⟨-, rfl⟩ := upTo?_eq_some_iff.1 h₂
      obtain rfl := behind?_eq_some_iff.1 h₃
      obtain rfl := literal?_eq_some_iff.1 h₄
      obtain rfl := behind?_eq_some_iff.1 h₅
      obtain ⟨hschema, rfl⟩ := upTo?_eq_some_iff.1 h₆
      exact ⟨⟨hkey, hschema⟩, rfl⟩
    · dsimp only at h
      rw [if_neg hkey] at h
      cases h
  · rintro ⟨⟨hkey, hschema⟩, rfl⟩
    have hcolon : ':' ∉ c.key := fun hmem => Lexicon.not_mem_of_isKey hkey ':' hmem (by simp)
    unfold case?
    refine Option.bind_eq_some_iff.2 ⟨_, behind?_eq_some_iff.2 rfl, ?_⟩
    refine Option.bind_eq_some_iff.2 ⟨_, upTo?_eq_some_iff.2 ⟨hcolon, rfl⟩, ?_⟩
    refine Option.bind_eq_some_iff.2 ⟨_, Option.bind_eq_some_iff.2
      ⟨_, behind?_eq_some_iff.2 rfl, literal?_eq_some_iff.2 rfl⟩, ?_⟩
    refine Option.bind_eq_some_iff.2 ⟨_, Option.bind_eq_some_iff.2
      ⟨_, behind?_eq_some_iff.2 rfl, upTo?_eq_some_iff.2 ⟨hschema, rfl⟩⟩, ?_⟩
    exact if_pos hkey

theorem cases?_eq_some_iff {lexicon : Lexicon} {n : Nat} {tokens : List Token} {cs : List Case} :
    cases? lexicon n tokens = some cs ↔
      cs.length = n ∧ (∀ c ∈ cs, c.Fits lexicon) ∧
        tokens = cs.flatMap Case.tokens ++ marks otherwise := by
  induction n generalizing tokens cs with
  | zero =>
    rw [cases?, List.length_eq_zero_iff]
    constructor
    · intro h
      split at h
      · next htokens =>
        obtain rfl := Option.some.inj h
        exact ⟨rfl, by simp, htokens⟩
      · cases h
    · rintro ⟨rfl, -, htokens⟩
      exact if_pos htokens
  | succ n ih =>
    constructor
    · intro h
      obtain ⟨⟨c, rest⟩, hcase, h⟩ := Option.bind_eq_some_iff.1 h
      obtain ⟨later, hlater, h⟩ := Option.bind_eq_some_iff.1 h
      obtain rfl := Option.some.inj h
      obtain ⟨hfits, rfl⟩ := case?_eq_some_iff.1 hcase
      obtain ⟨hlength, hall, rfl⟩ := ih.1 hlater
      exact ⟨by rw [List.length_cons, hlength], List.forall_mem_cons.2 ⟨hfits, hall⟩, by simp⟩
    · rintro ⟨hlength, hall, rfl⟩
      obtain ⟨c, later, rfl⟩ := List.exists_cons_of_length_eq_add_one hlength
      obtain ⟨hfits, hall⟩ := List.forall_mem_cons.1 hall
      refine Option.bind_eq_some_iff.2 ⟨_, case?_eq_some_iff.2 ⟨hfits, ?_⟩,
        Option.bind_eq_some_iff.2 ⟨_, ih.2 ⟨Nat.succ.inj hlength, hall, rfl⟩, rfl⟩⟩
      rw [List.flatMap_cons, List.append_assoc]

/-- A case has one literal. -/
theorem length_texts (cs : List Case) :
    (texts (cs.flatMap Case.tokens ++ marks otherwise)).length = cs.length := by
  have hmarks : ∀ s : List Char, texts (s.map .mark) = [] := by
    intro s
    simp [texts, List.filterMap_map]
  have hcase : ∀ c : Case, texts c.tokens = [c.value] := by
    intro c
    simp [Case.tokens, Case.pieces, Piece.tokens, texts, List.filterMap_map, List.filterMap_append]
  induction cs with
  | nil => rw [List.flatMap_nil, List.nil_append, marks, hmarks]; rfl
  | cons c cs ih =>
    have happend : texts ((c :: cs).flatMap Case.tokens ++ marks otherwise) =
        texts c.tokens ++ texts (cs.flatMap Case.tokens ++ marks otherwise) := by
      rw [List.flatMap_cons, List.append_assoc]
      exact List.filterMap_append
    rw [happend, hcase, List.length_append, ih, List.length_singleton, List.length_cons,
      Nat.add_comm]

/-- What is read as a dispatch over some cases is how that dispatch is written. -/
theorem dispatch?_eq_some_iff {lexicon : Lexicon} {code : String} {subject : List Char}
    {cs : List Case} :
    dispatch? lexicon code = some (subject, cs) ↔
      ')' ∉ subject ∧ (∀ c ∈ cs, c.Fits lexicon) ∧
        tokens? code = some ((dispatchPieces subject cs).flatMap Piece.tokens) := by
  have htokens : (dispatchPieces subject cs).flatMap Piece.tokens =
      marks "match(" ++ (subject.map .mark ++ .mark ')' ::
        (cs.flatMap Case.tokens ++ marks otherwise)) := by
    have hcases : (cs.flatMap Case.pieces).flatMap Piece.tokens = cs.flatMap Case.tokens :=
      List.flatMap_assoc
    simp [dispatchPieces, Piece.tokens, marks, hcases]
  rw [htokens]
  constructor
  · intro h
    obtain ⟨tokens, hread, h⟩ := Option.bind_eq_some_iff.1 h
    obtain ⟨rest₁, h₁, h⟩ := Option.bind_eq_some_iff.1 h
    obtain ⟨⟨s, rest₂⟩, h₂, h⟩ := Option.bind_eq_some_iff.1 h
    obtain ⟨cs', h₃, h⟩ := Option.bind_eq_some_iff.1 h
    obtain ⟨rfl, rfl⟩ := Prod.mk.inj (Option.some.inj h)
    obtain rfl := behind?_eq_some_iff.1 h₁
    obtain ⟨hsubject, rfl⟩ := upTo?_eq_some_iff.1 h₂
    obtain ⟨-, hfits, rfl⟩ := cases?_eq_some_iff.1 h₃
    exact ⟨hsubject, hfits, hread⟩
  · rintro ⟨hsubject, hfits, hread⟩
    refine Option.bind_eq_some_iff.2 ⟨_, hread, ?_⟩
    refine Option.bind_eq_some_iff.2 ⟨_, behind?_eq_some_iff.2 rfl, ?_⟩
    refine Option.bind_eq_some_iff.2 ⟨_, upTo?_eq_some_iff.2 ⟨hsubject, rfl⟩, ?_⟩
    exact Option.bind_eq_some_iff.2
      ⟨_, cases?_eq_some_iff.2 ⟨(length_texts cs).symm, hfits, rfl⟩, rfl⟩

/-- A case is faithful if its key and its schema have no quotes and its value is verbatim. -/
theorem Case.faithful_iff (c : Case) : (∀ p ∈ c.pieces, p.Faithful) ↔
    (Piece.code c.key).Faithful ∧ Verbatim .double c.value ∧ (Piece.code c.schema).Faithful := by
  have hfixed : (Piece.code ".with(\x7b ".toList).Faithful ∧ (Piece.code [':', ' ']).Faithful ∧
      (Piece.code " \x7d, () => ".toList).Faithful ∧ (Piece.code [')']).Faithful := by decide
  obtain ⟨hfront, hcolon, harrow, hend⟩ := hfixed
  simp only [Case.pieces, List.forall_mem_cons, hfront, hcolon, harrow, hend, true_and,
    List.not_mem_nil, false_implies, implies_true, and_true]
  rfl

end Script

/-! ## Dispatches of a document -/

namespace Validator

open Script Script.Literal Casing

/-- The case of an entry of a discriminator. -/
def caseOf (property : String) (e : String × String) : Case :=
  ⟨property.toList, e.1.toList, (variantName e.2).toList⟩

/-- The cases of a discriminator, one for each entry of its mapping. -/
def casesOf (d : Discriminator) : List Case := d.mapping.map (caseOf d.property)

/-- Joined parts with the separator in front of each of them. -/
theorem cons_intercalate {separator : Char} {parts : List (List Char)} (hne : parts ≠ []) :
    separator :: [separator].intercalate parts = parts.flatMap (separator :: ·) := by
  induction parts with
  | nil => exact absurd rfl hne
  | cons part parts ih =>
    by_cases hnil : parts = []
    · subst hnil
      simp
    · rw [List.intercalate_cons_of_ne_nil hnil, List.flatMap_cons, ← ih hnil]
      simp

theorem toList_dispatch (subject : Subject) {d : Discriminator} (hne : d.mapping ≠ []) :
    (dispatch subject d).toList =
      (dispatchPieces subject.variable.toList (casesOf d)).flatMap Piece.render := by
  have hcase : ∀ e : String × String, '.' :: (dispatchCase d.property e.1 e.2).toList =
      (caseOf d.property e).pieces.flatMap Piece.render := by
    intro e
    simp [dispatchCase, Case.pieces, caseOf, Piece.render, Quote.char]
  have hcases : '.' :: ['.'].intercalate
      (d.mapping.map fun e => (dispatchCase d.property e.1 e.2).toList) =
        ((casesOf d).flatMap Case.pieces).flatMap Piece.render := by
    rw [cons_intercalate (by simpa using hne), List.flatMap_map, casesOf, List.flatMap_map,
      List.flatMap_assoc]
    simp only [hcase]
  have hwritten : (dispatch subject d).toList =
      "match(".toList ++ subject.variable.toList ++ [')'] ++
        ('.' :: ['.'].intercalate
          (d.mapping.map fun e => (dispatchCase d.property e.1 e.2).toList)) ++
        otherwise.toList := by
    simp [dispatch, otherwise, String.toList_intercalate, Function.comp_def]
  rw [hwritten, hcases]
  simp [dispatchPieces, Piece.render]

/-- The name of a schema has neither quotes nor a bracket. -/
theorem not_mem_variantName {reference : String} {c : Char}
    (hc : c ∈ (variantName reference).toList) : c ∉ ['"', '\'', '`', '/'] ++ [')'] := by
  have hmark : (['"', '\'', '`', '/'] ++ [')']).all (fun c => !isNameChar c) = true := by decide
  intro hmem
  have htrue := (isSchemaName_variantName reference).isName c hc
  simpa [htrue] using List.all_eq_true.1 hmark c hmem

theorem caseOf_fits {lexicon : Lexicon} {property : String}
    (hkey : lexicon.isKey property.toList = true) (e : String × String) :
    (caseOf property e).Fits lexicon := by
  have hbracket : ')' ∉ (variantName e.2).toList :=
    fun hmem => not_mem_variantName hmem (by simp)
  constructor
  · simpa only [caseOf] using hkey
  · simpa only [caseOf] using hbracket

theorem caseOf_faithful_iff {property : String} (hproperty : (Piece.code property.toList).Faithful)
    (e : String × String) :
    (∀ p ∈ (caseOf property e).pieces, p.Faithful) ↔ Verbatim .double e.1.toList := by
  have hschema : (Piece.code (variantName e.2).toList).Faithful :=
    fun c hc hmem => not_mem_variantName hc (List.mem_append_left _ hmem)
  rw [Case.faithful_iff]
  unfold caseOf
  simp only [hproperty, hschema, true_and, and_true]

/-- The dispatch over the variants of a document is read as one case for each of them,
in order, with the property as key and the tag as value, exactly if the property can be
a key and no tag has a double quote, a backslash or a line end. -/
theorem dispatch?_dispatch_iff (lexicon : Lexicon) (subject : Subject) {d : Discriminator}
    (hne : d.mapping ≠ []) :
    dispatch? lexicon (dispatch subject d) = some (subject.variable.toList, casesOf d) ↔
      lexicon.isKey d.property.toList = true ∧ ∀ e ∈ d.mapping, Verbatim .double e.1.toList := by
  have hsubject : ')' ∉ subject.variable.toList ∧
      (Piece.code subject.variable.toList).Faithful := by
    cases subject <;> decide
  have hfixed : (Piece.code "match(".toList).Faithful ∧ (Piece.code [')']).Faithful ∧
      (Piece.code otherwise.toList).Faithful := by decide
  rw [dispatch?_eq_some_iff, tokens?, toList_dispatch subject hne, read?_render_iff]
  have hproperty : lexicon.isKey d.property.toList = true →
      (Piece.code d.property.toList).Faithful :=
    fun hkey c hc hmem => Lexicon.not_mem_of_isKey hkey c hc (List.mem_append_left _ hmem)
  constructor
  · rintro ⟨-, hfits, hfaithful⟩
    have hkey : lexicon.isKey d.property.toList = true := by
      obtain ⟨e, he⟩ := List.exists_mem_of_ne_nil _ hne
      exact (hfits _ (List.mem_map_of_mem he)).isKey
    refine ⟨hkey, fun e he => (caseOf_faithful_iff (hproperty hkey) e).1 fun p hp => ?_⟩
    refine hfaithful p (List.mem_append_left _ (List.mem_append_right _ ?_))
    exact List.mem_flatMap.2 ⟨_, List.mem_map_of_mem he, hp⟩
  · rintro ⟨hkey, htags⟩
    refine ⟨hsubject.1, fun c hc => ?_, fun p hp => ?_⟩
    · obtain ⟨e, -, rfl⟩ := List.mem_map.1 hc
      exact caseOf_fits hkey e
    · rcases List.mem_append.1 hp with hp | hp
      · rcases List.mem_append.1 hp with hp | hp
        · simp only [List.mem_cons, List.not_mem_nil, or_false] at hp
          rcases hp with rfl | rfl | rfl
          exacts [hfixed.1, hsubject.2, hfixed.2.1]
        · obtain ⟨c, hc, hp⟩ := List.mem_flatMap.1 hp
          obtain ⟨e, he, rfl⟩ := List.mem_map.1 hc
          exact (caseOf_faithful_iff (hproperty hkey) e).2 (htags e he) p hp
      · rw [List.mem_singleton.1 hp]
        exact hfixed.2.2

end Validator

end ClientRoutes
