import ClientRoutes.Hooks.Timing
import ClientRoutes.Proofs.Script.Arithmetic

/-
  The texts that are durations, and what is written for them.

  A duration is `Infinity`, `static`, a number of milliseconds or a run of tokens, each
  of them a number and the letter of a unit. The tokens of a text are found character by
  character, with the digits of the current token at hand; here they are a relation
  between texts and amounts, and the reader is its only solution.

  What is proved:
    1. `amounts?_eq_some_iff` — the amounts that are read are those the text spells.
    2. `ofText?_eq_some_iff` — the texts that are durations, and what each one gives.
    3. `terms_sum`, `words_sum` — a sum has one term and two words for every amount.
    4. `ofLiteral?_text` — which texts are durations, the value and the comment of a
       run of tokens, and the sum for two runs one behind the other.
-/

namespace ClientRoutes.Timing

open Text Script

/-! ## Tokens -/

/-- The letter of a unit. -/
def TimeUnit.letter : TimeUnit → Char
  | .hour => 'h'
  | .minute => 'm'
  | .second => 's'

/-- The decimal digits of a number of 64 bits. -/
def IsCount (s : List Char) (n : Nat) : Prop := Writes s n ∧ n < 2 ^ 64

/-- A run of tokens, and the amounts that they stand for. -/
inductive Spells : List Char → List Amount → Prop
  | nil : Spells [] []
  | token {digits rest : List Char} {a : Amount} {as : List Amount}
      (hcount : IsCount digits a.count) (hrest : Spells rest as) :
      Spells (digits ++ a.unit.letter :: rest) (a :: as)

theorem ofLetter?_eq_some_iff {c : Char} {u : TimeUnit} :
    TimeUnit.ofLetter? c = some u ↔ c = u.letter := by
  constructor
  · intro h
    unfold TimeUnit.ofLetter? at h
    split at h <;> cases h <;> rfl
  · rintro rfl
    cases u <;> rfl

theorem isDigit_letter (u : TimeUnit) : u.letter.isDigit = false := by
  cases u <;> rfl

theorem count?_eq_some_iff {s : List Char} {n : Nat} : count? s = some n ↔ IsCount s n := by
  have hmax : n ≤ maxUInt64 ↔ n < 2 ^ 64 := by
    change n ≤ 2 ^ 64 - 1 ↔ n < 2 ^ 64
    omega
  rw [count?, Option.filter_eq_some_iff, readNat?_eq_some_iff, decide_eq_true_iff, hmax]
  rfl

theorem Spells.append {s t : List Char} {as bs : List Amount} (hs : Spells s as)
    (ht : Spells t bs) : Spells (s ++ t) (as ++ bs) := by
  induction hs with
  | nil => exact ht
  | token hcount _ ih =>
    rw [List.append_assoc, List.cons_append]
    exact .token hcount ih

/-- A run of tokens begins with a token, unless it is empty. -/
theorem Spells.exists_token {s : List Char} {as : List Amount} (h : Spells s as) :
    s = [] ∧ as = [] ∨ ∃ digits a rest bs, s = digits ++ a.unit.letter :: rest ∧ as = a :: bs ∧
      IsCount digits a.count ∧ Spells rest bs := by
  cases h with
  | nil => exact .inl ⟨rfl, rfl⟩
  | token hcount hrest => exact .inr ⟨_, _, _, _, rfl, rfl, hcount, hrest⟩

/-- The digits in front of a character that is none are settled by the text. -/
theorem digits_unique {digits digits' rest rest' : List Char} {c c' : Char}
    (hdigits : ∀ d ∈ digits, d.isDigit = true) (hdigits' : ∀ d ∈ digits', d.isDigit = true)
    (hc : c.isDigit = false) (hc' : c'.isDigit = false)
    (h : digits ++ c :: rest = digits' ++ c' :: rest') :
    digits = digits' ∧ c = c' ∧ rest = rest' := by
  have htake := congrArg (List.takeWhile Char.isDigit) h
  rw [List.takeWhile_append_of_pos hdigits, List.takeWhile_append_of_pos hdigits',
    List.takeWhile_cons_of_neg (by simp [hc]), List.takeWhile_cons_of_neg (by simp [hc']),
    List.append_nil, List.append_nil] at htake
  subst htake
  exact ⟨rfl, List.cons.inj (List.append_cancel_left h)⟩

theorem Spells.of_digits {digits : List Char} {as : List Amount} (h : Spells digits as)
    (hdigits : ∀ d ∈ digits, d.isDigit = true) : digits = [] ∧ as = [] := by
  rcases h.exists_token with h | ⟨front, a, rest, -, rfl, -⟩
  · exact h
  · have hletter := hdigits a.unit.letter (by simp)
    rw [isDigit_letter] at hletter
    cases hletter

/-- The reader, with the digits of the current token at hand. -/
theorem amounts?_eq_some_iff {digits s : List Char} {as : List Amount}
    (hdigits : ∀ d ∈ digits, d.isDigit = true) :
    amounts? digits s = some as ↔ Spells (digits ++ s) as := by
  induction s generalizing digits as with
  | nil =>
    rw [amounts?, List.append_nil]
    constructor
    · intro h
      split at h
      · next hempty =>
        rw [List.isEmpty_iff.1 hempty, ← Option.some.inj h]
        exact .nil
      · cases h
    · intro h
      obtain ⟨rfl, rfl⟩ := h.of_digits hdigits
      rfl
  | cons c s ih =>
    rw [amounts?, isDecimal_eq]
    split
    · next hc =>
      rw [ih, List.append_assoc, List.singleton_append]
      intro d hd
      rcases List.mem_append.1 hd with hd | hd
      · exact hdigits d hd
      · rwa [List.mem_singleton.1 hd]
    · next hc =>
      have hrest : ∀ bs, amounts? [] s = some bs ↔ Spells s bs := fun bs => ih (by simp)
      simp only [Option.bind_eq_bind, Option.bind_eq_some_iff, ofLetter?_eq_some_iff,
        count?_eq_some_iff, hrest, Option.pure_def, Option.some_inj]
      constructor
      · rintro ⟨u, rfl, n, hn, bs, hbs, rfl⟩
        exact Spells.token (a := ⟨n, u⟩) hn hbs
      · intro h
        rcases h.exists_token with ⟨hnil, -⟩ | ⟨digits', a, rest, bs, heq, rfl, hcount, hbs⟩
        · simp at hnil
        · obtain ⟨rfl, rfl, rfl⟩ := digits_unique hdigits hcount.1.digits (by simpa using hc)
            (isDigit_letter _) heq
          exact ⟨a.unit, rfl, a.count, hcount, bs, hbs, rfl⟩

theorem spells_iff {s : List Char} {as : List Amount} : amounts? [] s = some as ↔ Spells s as :=
  amounts?_eq_some_iff (by simp)

/-! ## Durations -/

/-- A text without blanks around it that is a duration, and what it gives. -/
inductive Means : List Char → Timing → Prop
  | infinity : Means "Infinity".toList ⟨"Infinity", none⟩
  | static : Means "static".toList ⟨"'static'", none⟩
  | number {s : List Char} {n : Nat} (h : IsCount s n) : Means s ⟨toString n, none⟩
  | amounts {s : List Char} {as : List Amount} (hne : as ≠ []) (h : Spells s as) : Means s (sum as)

theorem IsCount.all_isDecimal {s : List Char} {n : Nat} (h : IsCount s n) :
    (!s.isEmpty && s.all isDecimal) = true := by
  rw [Bool.and_eq_true, Bool.not_eq_true', List.isEmpty_eq_false_iff, List.all_eq_true]
  exact ⟨h.1.ne_nil, fun c hc => (isDecimal_eq c).trans (h.1.digits c hc)⟩

/-- A text that begins with a digit is neither of the two words. -/
theorem ne_word_of_digit {s rest : List Char} {c : Char} (hs : s = c :: rest)
    (hc : c.isDigit = true) : s ≠ "Infinity".toList ∧ s ≠ "static".toList := by
  subst hs
  constructor <;>
  · intro h
    obtain ⟨rfl, -⟩ := List.cons.inj h
    exact absurd hc (by decide)

theorem IsCount.exists_cons {s : List Char} {n : Nat} (h : IsCount s n) :
    ∃ c rest, s = c :: rest ∧ c.isDigit = true := by
  obtain ⟨c, rest, rfl⟩ := List.exists_cons_of_ne_nil h.1.ne_nil
  exact ⟨c, rest, rfl, h.1.digits c List.mem_cons_self⟩

theorem ofText?_of_means {s : List Char} {x : Timing} (h : Means s x) : ofText? s = some x := by
  cases h with
  | infinity => rfl
  | static => rfl
  | number h =>
    obtain ⟨c, rest, hs, hc⟩ := h.exists_cons
    obtain ⟨hinfinity, hstatic⟩ := ne_word_of_digit hs hc
    rw [ofText?, if_neg hinfinity, if_neg hstatic, if_pos h.all_isDecimal,
      count?_eq_some_iff.2 h]
    rfl
  | @amounts _ as hne h =>
    rcases h.exists_token with ⟨-, hnil⟩ | ⟨digits, a, rest, bs, rfl, -, hcount, -⟩
    · exact absurd hnil hne
    · obtain ⟨c, more, rfl, hc⟩ := hcount.exists_cons
      obtain ⟨hinfinity, hstatic⟩ := ne_word_of_digit (List.cons_append ..) hc
      have hletter : ¬(!(c :: more ++ a.unit.letter :: rest).isEmpty &&
          (c :: more ++ a.unit.letter :: rest).all isDecimal) = true := by
        rw [Bool.and_eq_true, List.all_eq_true]
        rintro ⟨-, hall⟩
        have hdecimal := hall a.unit.letter (by simp)
        rw [isDecimal_eq, isDigit_letter] at hdecimal
        cases hdecimal
      rw [ofText?, if_neg hinfinity, if_neg hstatic, if_neg hletter, spells_iff.2 h,
        Option.filter_some, if_pos (by simpa using hne)]
      rfl

theorem means_of_ofText? {s : List Char} {x : Timing} (h : ofText? s = some x) : Means s x := by
  unfold ofText? at h
  split at h
  · next hs =>
    rw [hs, ← Option.some.inj h]
    exact .infinity
  · split at h
    · next hs =>
      rw [hs, ← Option.some.inj h]
      exact .static
    · split at h
      · obtain ⟨n, hn, rfl⟩ := Option.map_eq_some_iff.1 h
        exact .number (count?_eq_some_iff.1 hn)
      · obtain ⟨as, has, rfl⟩ := Option.map_eq_some_iff.1 h
        obtain ⟨has, hne⟩ := Option.filter_eq_some_iff.1 has
        exact .amounts (by simpa using hne) (spells_iff.1 has)

theorem ofText?_eq_some_iff {s : List Char} {x : Timing} : ofText? s = some x ↔ Means s x :=
  ⟨means_of_ofText?, ofText?_of_means⟩

theorem exists_means_iff {s : List Char} :
    (∃ x, Means s x) ↔ s = "Infinity".toList ∨ s = "static".toList ∨ (∃ n, IsCount s n) ∨
      ∃ as, as ≠ [] ∧ Spells s as := by
  constructor
  · rintro ⟨x, hx⟩
    cases hx with
    | infinity => exact .inl rfl
    | static => exact .inr (.inl rfl)
    | number h => exact .inr (.inr (.inl ⟨_, h⟩))
    | amounts hne h => exact .inr (.inr (.inr ⟨_, hne, h⟩))
  · rintro (rfl | rfl | ⟨n, h⟩ | ⟨as, hne, h⟩)
    · exact ⟨_, .infinity⟩
    · exact ⟨_, .static⟩
    · exact ⟨_, .number h⟩
    · exact ⟨_, .amounts hne h⟩

/-! ## Sums -/

namespace Amount

/-- The milliseconds of an amount. -/
def milliseconds (a : Amount) : Nat := a.count * a.unit.milliseconds

/-- The two words for an amount: its number and its unit, in the singular exactly if the
number is one. -/
def words (a : Amount) : List (List Char) :=
  [(toString a.count).toList,
    if a.count = 1 then a.unit.name.toList else a.unit.name.toList ++ ['s']]

/-- The numbers whose product an amount is. -/
def factors (a : Amount) : List Nat :=
  a.count :: match a.unit with
    | .hour => [60, 60, 1000]
    | .minute => [60, 1000]
    | .second => [1000]

theorem prod_factors (a : Amount) : a.factors.prod = a.milliseconds := by
  rw [factors, milliseconds, List.prod_cons]
  cases a.unit <;> rfl

theorem toList_term (a : Amount) : a.term.toList = productText a.factors := by
  rw [term, String.toList_append, String.toList_append]
  cases h : a.unit <;>
    rw [productText, factors, h, List.map_cons, List.map_cons, List.intercalate_cons_cons] <;> rfl

theorem factors_ne_nil (a : Amount) : a.factors ≠ [] := List.cons_ne_nil _ _

/-- The words of an amount are those of its label. -/
theorem split_label (a : Amount) : split ' ' a.label.toList = a.words := by
  have hname : ∀ u : TimeUnit, ' ' ∉ u.name.toList ∧ ' ' ∉ u.name.toList ++ ['s'] := by
    intro u
    cases u <;> decide
  have hcut : a.label.toList = (toString a.count).toList ++
      ' ' :: (if a.count = 1 then a.unit.name.toList else a.unit.name.toList ++ ['s']) := by
    rw [label]
    split <;> simp
  rw [hcut, split_append, split_of_not_mem ((writes_toString a.count).not_mem (by decide)),
    split_of_not_mem (by split; exacts [(hname a.unit).1, (hname a.unit).2])]
  rfl

end Amount

theorem toList_expression_sum (as : List Amount) :
    (sum as).expression.toList =
      (spaced '+').intercalate ((as.map Amount.factors).map productText) := by
  rw [sum, String.toList_intercalate, List.map_map, List.map_map]
  congr 1
  exact List.map_congr_left fun a _ => a.toList_term

/-- A sum has one term for every amount, and the value of the term is that of the
amount. -/
theorem terms_sum {as : List Amount} (hne : as ≠ []) :
    (operands '+' (sum as).expression.toList).map product? =
      (as.map Amount.milliseconds).map some := by
  rw [toList_expression_sum, map_product?_operands (by simpa using hne)
    (List.forall_mem_map.2 fun a _ => a.factors_ne_nil), List.map_map, List.map_map]
  exact List.map_congr_left fun a _ => congrArg some a.prod_factors

/-- The comment of a sum has two words for every amount. -/
theorem words_sum {as : List Amount} (hne : as ≠ []) :
    split ' ' (" ".intercalate (as.map Amount.label)).toList = as.flatMap Amount.words := by
  have hparts : as.map (String.toList ∘ Amount.label) ≠ [] := by simpa using hne
  have hblank : " ".toList = [' '] := rfl
  rw [String.toList_intercalate, List.map_map, hblank, split_intercalate_flatMap hparts,
    List.flatMap_map]
  exact List.flatMap_congr fun a _ => a.split_label

/-- The sum of two lists of amounts is written as the two sums, one behind the other. -/
theorem sum_append {as bs : List Amount} (has : as ≠ []) (hbs : bs ≠ []) :
    sum (as ++ bs) = ⟨(sum as).expression ++ " + " ++ (sum bs).expression,
      some (" ".intercalate (as.map Amount.label) ++ " " ++
        " ".intercalate (bs.map Amount.label))⟩ := by
  rw [sum, List.map_append, List.map_append,
    String.intercalate_append_of_ne_nil (by simpa using has) (by simpa using hbs),
    String.intercalate_append_of_ne_nil (by simpa using has) (by simpa using hbs)]
  rfl

/-! ## Together -/

theorem ofLiteral?_of_spells {t : String} {as : List Amount} (hne : as ≠ [])
    (h : Spells (trim t.toList) as) : ofLiteral? (.text t) = some (sum as) :=
  ofText?_of_means (.amounts hne h)

/-- No blank stands in a run of tokens. -/
theorem Spells.trimmed {s : List Char} {as : List Amount} (h : Spells s as) : Trimmed s := by
  have hletter : ∀ u : TimeUnit, isBlank u.letter = false := by
    intro u
    cases u <;> decide
  refine .of_forall ?_
  induction h with
  | nil => simp
  | @token digits rest a as hcount _ ih =>
    rw [List.forall_mem_append, List.forall_mem_cons]
    exact ⟨fun c hc => isBlank_of_isDigit (hcount.1.digits c hc), hletter a.unit, ih⟩

/-- A text is a duration exactly if, without the blanks around it, it is `Infinity`,
`static`, the digits of a number of 64 bits or a run of tokens. A run of tokens is written as
a sum with one term for every token, in order, whose value is the number of milliseconds
of the token; the comment has two words for every token, in order, the second one in the
singular exactly if the number is one. For two runs one behind the other, the sums are
joined by a plus sign and the comments by a blank. -/
theorem ofLiteral?_text :
    (∀ t : String, (ofLiteral? (.text t)).isSome = true ↔
      trim t.toList = "Infinity".toList ∨ trim t.toList = "static".toList ∨
        (∃ n, IsCount (trim t.toList) n) ∨ ∃ as, as ≠ [] ∧ Spells (trim t.toList) as) ∧
    (∀ (t : String) (as : List Amount), as ≠ [] → Spells (trim t.toList) as →
      ∃ expression comment, ofLiteral? (.text t) = some ⟨expression, some comment⟩ ∧
        value? expression.toList = some (as.map Amount.milliseconds).sum ∧
        (operands '+' expression.toList).map product? = (as.map Amount.milliseconds).map some ∧
        split ' ' comment.toList = as.flatMap Amount.words) ∧
    ∀ (s t : String) (as bs : List Amount), as ≠ [] → bs ≠ [] → Spells (trim s.toList) as →
      Spells (trim t.toList) bs → ∃ e f c d,
        ofLiteral? (.text s) = some ⟨e, some c⟩ ∧ ofLiteral? (.text t) = some ⟨f, some d⟩ ∧
        ofLiteral? (.text (String.ofList (trim s.toList ++ trim t.toList))) =
          some ⟨e ++ " + " ++ f, some (c ++ " " ++ d)⟩ := by
  refine ⟨fun t => ?_, fun t as hne h => ?_, fun s t as bs has hbs hs ht => ?_⟩
  · rw [← exists_means_iff, Option.isSome_iff_exists]
    simp only [← ofText?_eq_some_iff]
    rfl
  · exact ⟨_, _, ofLiteral?_of_spells hne h, value?_of_terms (terms_sum hne), terms_sum hne,
      words_sum hne⟩
  · have hboth : Spells (trim (String.ofList (trim s.toList ++ trim t.toList)).toList)
        (as ++ bs) := by
      rw [String.toList_ofList, (hs.append ht).trimmed.trim_eq]
      exact hs.append ht
    refine ⟨_, _, _, _, ofLiteral?_of_spells has hs, ofLiteral?_of_spells hbs ht, ?_⟩
    exact (ofLiteral?_of_spells (by simp [has]) hboth).trans
      (congrArg some (sum_append has hbs))

/-- One hour and thirty minutes, and with forty-five seconds behind them. -/
theorem ofLiteral?_text_hours :
    Spells (trim " 1h30m ".toList) [⟨1, .hour⟩, ⟨30, .minute⟩] ∧
      Spells (trim "45s".toList) [⟨45, .second⟩] ∧
      (∃ expression comment, ofLiteral? (.text " 1h30m ") = some ⟨expression, some comment⟩ ∧
        value? expression.toList = some 5400000 ∧
        (operands '+' expression.toList).map product? = [some 3600000, some 1800000] ∧
        split ' ' comment.toList =
          ["1".toList, "hour".toList, "30".toList, "minutes".toList]) ∧
      ∃ e f c d, ofLiteral? (.text " 1h30m ") = some ⟨e, some c⟩ ∧
        ofLiteral? (.text "45s") = some ⟨f, some d⟩ ∧
        ofLiteral? (.text "1h30m45s") = some ⟨e ++ " + " ++ f, some (c ++ " " ++ d)⟩ := by
  obtain ⟨-, hsum, hjoin⟩ := ofLiteral?_text
  have hhours : Spells (trim " 1h30m ".toList) [⟨1, .hour⟩, ⟨30, .minute⟩] :=
    spells_iff.1 (by decide +kernel)
  have hseconds : Spells (trim "45s".toList) [⟨45, .second⟩] :=
    spells_iff.1 (by decide +kernel)
  have hboth : String.ofList (trim " 1h30m ".toList ++ trim "45s".toList) = "1h30m45s" := by
    decide +kernel
  refine ⟨hhours, hseconds, hsum _ _ (List.cons_ne_nil _ _) hhours, ?_⟩
  rw [← hboth]
  exact hjoin _ _ _ _ (List.cons_ne_nil _ _) (List.cons_ne_nil _ _) hhours hseconds

end ClientRoutes.Timing
