import ClientRoutes.Hooks.Directive
import ClientRoutes.Proofs.Text.Edit
import ClientRoutes.Proofs.Text.Trimming

/-
  Reading and printing directives.

  A directive is written in one of two forms: a key alone, or a key, maybe blanks, and
  a list of arguments in parentheses that ends the text. The forms are a relation here,
  with the directive that each of them gives; reading is that relation, and printing
  chooses one text for every directive.

  What is proved:
    1. `ofTrimmed?_eq_some_iff` — a trimmed text is read as the directive that its form
       gives.
    2. `exists_written_iff` — which texts have a form.
    3. `written_print`, `Written.proper` — printed directives have a form, and only
       proper directives are read.
    4. `ofText?_print` — the two directions together, and the texts that are refused.
    5. `render?_ofToken_eq_some_iff`, `render?_ofToken_eq_none_iff` — which arguments of a
       directive are rendered, as what, and which are left out.
-/

namespace ClientRoutes.Directive

open Text

/-! ## Keys, arguments and forms -/

/-- A text that can be a key: it has neither blanks nor brackets nor commas. -/
def KeyLiteral (s : List Char) : Prop :=
  s ≠ [] ∧ ∀ c ∈ s, isBlank c = false ∧ c ∉ ['(', ')', ',', '[', ']']

/-- A text that can be an argument: blanks may stand inside, commas and parentheses not. -/
def IsArgument (s : List Char) : Prop :=
  s ≠ [] ∧ Trimmed s ∧ ∀ c ∈ s, c ∉ ['(', ')', ',']

/-- A directive whose key is a key and whose arguments are arguments. -/
structure Proper (d : Directive) : Prop where
  key : KeyLiteral d.key.toList
  arguments : ∀ as, d.arguments = some as → ∀ a ∈ as, IsArgument a.toList

/-- The arguments that some parts give: blanks around them and empty ones are dropped. -/
def kept (parts : List (List Char)) : List String :=
  ((parts.map trim).filter (!·.isEmpty)).map String.ofList

/-- A text in one of the two forms, and the directive that it gives. -/
inductive Written : List Char → Directive → Prop
  | bare {key : List Char} (hkey : KeyLiteral key) : Written key ⟨String.ofList key, none⟩
  | call {key blanks : List Char} {parts : List (List Char)} (hkey : KeyLiteral key)
      (hblanks : Blank blanks) (hne : parts ≠ [])
      (hparts : ∀ part ∈ parts, ∀ c ∈ part, c ∉ ['(', ')', ',']) :
      Written (key ++ blanks ++ '(' :: ([','].intercalate parts ++ [')']))
        ⟨String.ofList key, some (kept parts)⟩

/-- A key, or a key with what stands in parentheses at the end of the text. -/
def HasForm (s : List Char) : Prop :=
  KeyLiteral s ∨ ∃ key blanks inner, KeyLiteral key ∧ Blank blanks ∧ '(' ∉ inner ∧ ')' ∉ inner ∧
    s = key ++ blanks ++ '(' :: (inner ++ [')'])

theorem isKey_iff {s : List Char} : isKey s = true ↔ KeyLiteral s := by
  simp [isKey, isKeyChar, KeyLiteral, and_assoc]

theorem KeyLiteral.trimmed {s : List Char} (h : KeyLiteral s) : Trimmed s :=
  .of_forall fun c hc => (h.2 c hc).1

theorem KeyLiteral.open_not_mem {s : List Char} (h : KeyLiteral s) : '(' ∉ s :=
  fun hmem => (h.2 '(' hmem).2 (by simp)

theorem Blank.open_not_mem {s : List Char} (h : Blank s) : '(' ∉ s :=
  fun hmem => absurd (h '(' hmem) (by decide)

/-! ## Arguments -/

theorem arguments?_intercalate {parts : List (List Char)} (hne : parts ≠ [])
    (hparts : ∀ part ∈ parts, ∀ c ∈ part, c ∉ ['(', ')', ',']) :
    arguments? ([','].intercalate parts) = some (kept parts) := by
  have hplain : ([','].intercalate parts).any (fun c => c == '(' || c == ')') = false := by
    rw [List.any_eq_false]
    intro c hc
    rcases mem_of_mem_intercalate hc with hc | ⟨part, hpart, hc⟩
    · rw [List.mem_singleton.1 hc]
      decide
    · have hnot := hparts part hpart c hc
      simp only [List.mem_cons, not_or] at hnot
      simp [hnot.1, hnot.2.1]
  rw [arguments?, hplain, split_intercalate hne fun part hpart hmem =>
    hparts part hpart ',' hmem (by simp)]
  rfl

theorem exists_of_arguments? {inner : List Char} {as : List String}
    (h : arguments? inner = some as) :
    ∃ parts, parts ≠ [] ∧ (∀ part ∈ parts, ∀ c ∈ part, c ∉ ['(', ')', ',']) ∧
      inner = [','].intercalate parts ∧ as = kept parts := by
  unfold arguments? at h
  split at h
  · cases h
  · next hplain =>
    refine ⟨split ',' inner, split_ne_nil ',' inner, ?_, ?_, (Option.some.inj h).symm⟩
    · intro part hpart c hc
      obtain ⟨hmem, hcomma⟩ := mem_of_mem_split hpart hc
      rw [Bool.not_eq_true, List.any_eq_false] at hplain
      have hparens := hplain c hmem
      simp only [Bool.or_eq_true, beq_iff_eq, not_or] at hparens
      simp [hparens, hcomma]
    · rw [split_eq_splitOn]
      exact (List.intercalate_splitOn ',').symm

theorem arguments?_isSome_iff {inner : List Char} :
    (arguments? inner).isSome = true ↔ '(' ∉ inner ∧ ')' ∉ inner := by
  unfold arguments?
  split
  · next h =>
    obtain ⟨c, hc, hparen⟩ := List.any_eq_true.1 h
    simp only [Bool.or_eq_true, beq_iff_eq] at hparen
    refine iff_of_false (by simp) ?_
    rintro ⟨hopen, hclose⟩
    rcases hparen with rfl | rfl
    · exact hopen hc
    · exact hclose hc
  · next h =>
    rw [Bool.not_eq_true, List.any_eq_false] at h
    exact iff_of_true rfl ⟨fun hc => h _ hc rfl, fun hc => h _ hc rfl⟩

theorem isArgument_of_mem_kept {parts : List (List Char)}
    (hparts : ∀ part ∈ parts, ∀ c ∈ part, c ∉ ['(', ')', ',']) {a : String}
    (ha : a ∈ kept parts) : IsArgument a.toList := by
  obtain ⟨s, hs, rfl⟩ := List.mem_map.1 ha
  obtain ⟨hs, hne⟩ := List.mem_filter.1 hs
  obtain ⟨part, hpart, rfl⟩ := List.mem_map.1 hs
  rw [String.toList_ofList]
  exact ⟨by simpa using hne, trimmed_trim part,
    fun c hc => hparts part hpart c (mem_of_mem_trim hc)⟩

/-! ## Reading -/

/-- Reading cuts a text at its first opening parenthesis. -/
theorem cut_append {front : List Char} (h : '(' ∉ front) (rest : List Char) :
    (front ++ '(' :: rest).takeWhile (· != '(') = front ∧
      (front ++ '(' :: rest).dropWhile (· != '(') = '(' :: rest := by
  have hfront : ∀ c ∈ front, (c != '(') = true := by
    intro c hc
    rw [bne_iff_ne]
    rintro rfl
    exact h hc
  rw [List.takeWhile_append_of_pos hfront, List.dropWhile_append_of_pos hfront]
  simp

theorem exists_cut {s rest : List Char} {c : Char} (h : s.dropWhile (· != '(') = c :: rest) :
    s = s.takeWhile (· != '(') ++ '(' :: rest := by
  have hc : c = '(' := by
    have hhead := List.head?_dropWhile_not (· != '(') s
    rw [h] at hhead
    simpa using hhead
  subst hc
  rw [← h]
  exact List.takeWhile_append_dropWhile.symm

/-- The key in front of the parenthesis has no blanks before it, since the text has
none. -/
theorem exists_blanks {front rest : List Char} (h : Trimmed (front ++ rest)) :
    ∃ blanks, Blank blanks ∧ front = trim front ++ blanks := by
  obtain ⟨-, before, blanks, hbefore, hblanks, hfront⟩ := exists_trim front
  refine ⟨blanks, hblanks, ?_⟩
  cases before with
  | nil => exact hfront
  | cons c before =>
    have hc := h.front c (by rw [hfront]; rfl)
    rw [hbefore c List.mem_cons_self] at hc
    cases hc

theorem written_of_ofTrimmed? {s : List Char} (hs : Trimmed s) {d : Directive}
    (h : ofTrimmed? s = some d) : Written s d := by
  unfold ofTrimmed? at h
  split at h
  · split at h
    · next hkey =>
      obtain rfl := Option.some.inj h
      exact .bare (isKey_iff.1 hkey)
    · cases h
  · next c rest hdrop =>
    obtain ⟨inner, hinner, h⟩ := Option.bind_eq_some_iff.1 h
    dsimp only at h
    split at h
    · next hkey =>
      obtain ⟨as, has, h⟩ := Option.bind_eq_some_iff.1 h
      obtain rfl := Option.some.inj h
      obtain ⟨parts, hne, hparts, rfl, rfl⟩ := exists_of_arguments? has
      have hcut := exists_cut hdrop
      rw [← List.isSuffixOf?_eq_some_iff_append_eq.1 hinner] at hcut
      rw [hcut] at hs
      obtain ⟨blanks, hblanks, hfront⟩ := exists_blanks hs
      have hcall := Written.call (isKey_iff.1 hkey) hblanks hne hparts
      rwa [← hfront, ← hcut] at hcall
    · cases h

theorem ofTrimmed?_of_written {s : List Char} {d : Directive} (h : Written s d) :
    ofTrimmed? s = some d := by
  cases h with
  | bare hkey =>
    have hdrop : s.dropWhile (· != '(') = [] := by
      rw [List.dropWhile_eq_nil_iff]
      intro c hc
      rw [bne_iff_ne]
      rintro rfl
      exact hkey.open_not_mem hc
    rw [ofTrimmed?, hdrop]
    exact if_pos (isKey_iff.2 hkey)
  | @call key blanks parts hkey hblanks hne hparts =>
    have hopen : '(' ∉ key ++ blanks := by
      rw [List.mem_append, not_or]
      exact ⟨hkey.open_not_mem, Blank.open_not_mem hblanks⟩
    obtain ⟨htake, hdrop⟩ := cut_append hopen ([','].intercalate parts ++ [')'])
    have hkeyTrim : trim (key ++ blanks) = key := trim_append_right hkey.trimmed hblanks
    have hsuffix : [')'].isSuffixOf? ([','].intercalate parts ++ [')']) =
        some ([','].intercalate parts) := List.isSuffixOf?_eq_some_iff_append_eq.2 rfl
    rw [ofTrimmed?, hdrop]
    simp only [htake, hkeyTrim, hsuffix, isKey_iff.2 hkey, arguments?_intercalate hne hparts,
      Option.bind_eq_bind, Option.bind_some, if_true]
    rfl

theorem ofTrimmed?_eq_some_iff {s : List Char} (hs : Trimmed s) {d : Directive} :
    ofTrimmed? s = some d ↔ Written s d :=
  ⟨written_of_ofTrimmed? hs, ofTrimmed?_of_written⟩

theorem ofText?_eq_some_iff {raw : String} {d : Directive} :
    ofText? raw = some d ↔ Written (trim raw.toList) d :=
  ofTrimmed?_eq_some_iff (trimmed_trim raw.toList)

theorem exists_written_iff {s : List Char} : (∃ d, Written s d) ↔ HasForm s := by
  constructor
  · rintro ⟨d, hkey | ⟨hkey, hblanks, hne, hparts⟩⟩
    · exact .inl hkey
    · have hinner := arguments?_isSome_iff.1 (by rw [arguments?_intercalate hne hparts]; rfl)
      exact .inr ⟨_, _, _, hkey, hblanks, hinner.1, hinner.2, rfl⟩
  · rintro (hkey | ⟨key, blanks, inner, hkey, hblanks, hopen, hclose, rfl⟩)
    · exact ⟨_, .bare hkey⟩
    · obtain ⟨as, has⟩ := Option.isSome_iff_exists.1 (arguments?_isSome_iff.2 ⟨hopen, hclose⟩)
      obtain ⟨parts, hne, hparts, rfl, -⟩ := exists_of_arguments? has
      exact ⟨_, .call hkey hblanks hne hparts⟩

theorem Written.proper {s : List Char} {d : Directive} (h : Written s d) : d.Proper := by
  cases h with
  | bare hkey =>
    refine ⟨by rwa [String.toList_ofList], ?_⟩
    intro as has
    cases has
  | call hkey hblanks hne hparts =>
    refine ⟨by rwa [String.toList_ofList], ?_⟩
    intro as has
    obtain rfl := Option.some.inj has
    exact fun a ha => isArgument_of_mem_kept hparts ha

/-! ## Printing -/

/-- The parts between the commas of a printed directive. -/
def printedParts : List String → List (List Char)
  | [] => [[]]
  | a :: rest => a.toList :: rest.map fun b => ' ' :: b.toList

theorem printedParts_ne_nil (as : List String) : printedParts as ≠ [] := by
  cases as <;> exact List.cons_ne_nil _ _

theorem intercalate_printedParts (as : List String) :
    [','].intercalate (printedParts as) = (", ".intercalate as).toList := by
  rw [String.toList_intercalate]
  cases as with
  | nil => rfl
  | cons a rest =>
    -- Every blank moves from the separator to the part behind it.
    have hmove : ∀ (first : List Char) (parts : List (List Char)),
        [','].intercalate (first :: parts.map (' ' :: ·)) =
          [',', ' '].intercalate (first :: parts) := by
      intro first parts
      induction parts generalizing first with
      | nil => simp
      | cons part parts ih =>
        rw [List.map_cons, List.intercalate_cons_cons, List.intercalate_cons_cons, ← ih part]
        cases parts <;> simp
    have hrest := hmove a.toList (rest.map String.toList)
    rw [List.map_map] at hrest
    exact hrest

theorem kept_printedParts {as : List String} (h : ∀ a ∈ as, IsArgument a.toList) :
    kept (printedParts as) = as := by
  have htrim : ∀ a ∈ as, trim a.toList = a.toList := fun a ha => (h a ha).2.1.trim_eq
  have hparts : kept (printedParts as) =
      ((as.map String.toList).filter (!·.isEmpty)).map String.ofList := by
    cases as with
    | nil => rfl
    | cons a rest =>
      obtain ⟨ha, hrest⟩ := List.forall_mem_cons.1 htrim
      have hmap : (rest.map fun b => ' ' :: b.toList).map trim = rest.map String.toList := by
        rw [List.map_map]
        apply List.map_congr_left
        intro b hb
        exact (trim_cons (by decide) b.toList).trans (hrest b hb)
      rw [kept, printedParts, List.map_cons, hmap, ha, List.map_cons]
  have hall : (as.map String.toList).filter (!·.isEmpty) = as.map String.toList := by
    rw [List.filter_eq_self]
    intro s hs
    obtain ⟨a, ha, rfl⟩ := List.mem_map.1 hs
    simpa using (h a ha).1
  rw [hparts, hall, List.map_map]
  simp [Function.comp_def]

theorem mem_printedParts {as : List String} (h : ∀ a ∈ as, IsArgument a.toList)
    {part : List Char} (hpart : part ∈ printedParts as) {c : Char} (hc : c ∈ part) :
    c ∉ ['(', ')', ','] := by
  have hblank : ' ' ∉ ['(', ')', ','] := by decide
  cases as with
  | nil =>
    obtain rfl := List.mem_singleton.1 hpart
    cases hc
  | cons a rest =>
    rcases List.mem_cons.1 hpart with rfl | hpart
    · exact (h a List.mem_cons_self).2.2 c hc
    · obtain ⟨b, hb, rfl⟩ := List.mem_map.1 hpart
      rcases List.mem_cons.1 hc with rfl | hc
      · exact hblank
      · exact (h b (List.mem_cons_of_mem _ hb)).2.2 c hc

theorem written_print {d : Directive} (h : d.Proper) : Written d.print.toList d := by
  obtain ⟨key, arguments⟩ := d
  obtain ⟨hkey, harguments⟩ := h
  cases arguments with
  | none =>
    have hbare := Written.bare hkey
    rwa [String.ofList_toList] at hbare
  | some as =>
    have hall := harguments as rfl
    have hcall := Written.call hkey blank_nil (printedParts_ne_nil as)
      fun part hpart c hc => mem_printedParts hall hpart hc
    rw [kept_printedParts hall, intercalate_printedParts, String.ofList_toList,
      List.append_nil] at hcall
    simpa [print] using hcall

theorem trimmed_print {d : Directive} (h : d.Proper) : Trimmed d.print.toList := by
  obtain ⟨key, arguments⟩ := d
  have hkey : KeyLiteral key.toList := h.key
  cases arguments with
  | none => exact hkey.trimmed
  | some as =>
    have hprint : (print ⟨key, some as⟩).toList =
        key.toList ++ '(' :: ((", ".intercalate as).toList ++ [')']) := by
      simp [print]
    rw [hprint, ← List.cons_append, ← List.append_assoc]
    have hclose : Trimmed [')'] := .of_forall (List.forall_mem_singleton.2 (by decide))
    exact hkey.trimmed.append hkey.1 hclose (List.cons_ne_nil _ _) _

/-! ## Together -/

/-- A proper directive is read back from its printed text. What is read from any text is
a proper directive, which its form gives, and it is read again from its own printed text. A
text is refused exactly if, without the blanks around it, it is neither a key nor a key,
maybe blanks, and something without parentheses in parentheses at its end. -/
theorem ofText?_print :
    (∀ d : Directive, d.Proper → ofText? d.print = some d) ∧
      (∀ raw d, ofText? raw = some d →
        d.Proper ∧ Written (trim raw.toList) d ∧ ofText? d.print = some d) ∧
      ∀ raw, ofText? raw = none ↔ ¬HasForm (trim raw.toList) := by
  have hprint : ∀ d : Directive, d.Proper → ofText? d.print = some d := by
    intro d hd
    rw [ofText?_eq_some_iff, (trimmed_print hd).trim_eq]
    exact written_print hd
  refine ⟨hprint, fun raw d h => ?_, fun raw => ?_⟩
  · have hwritten := ofText?_eq_some_iff.1 h
    exact ⟨hwritten.proper, hwritten, hprint d hwritten.proper⟩
  · rw [← exists_written_iff, Option.eq_none_iff_forall_ne_some, not_exists]
    simp only [ne_eq, ofText?_eq_some_iff]

/-- A directive with two arguments. -/
def userDetail : Directive := ⟨"USER_DETAIL", some ["$parameters.userId", "$payload.name"]⟩

/-- Blanks around the parts and empty arguments do not count; two keys have no form, and
neither has a list that does not end the text. -/
theorem ofText?_print_detail :
    userDetail.Proper ∧ ofText? "USER_DETAIL($parameters.userId, $payload.name)" = some userDetail ∧
      ofText? " USER_DETAIL ($parameters.userId,, $payload.name ) " = some userDetail ∧
      Written "USER_DETAIL ($parameters.userId,, $payload.name )".toList userDetail ∧
      ¬HasForm (trim "USER_DETAIL USER_LIST".toList) ∧
      ¬HasForm (trim "USER_DETAIL() USER_LIST".toList) := by
  obtain ⟨hprint, hread, hnone⟩ := ofText?_print
  have hloose : ofText? " USER_DETAIL ($parameters.userId,, $payload.name ) " =
      some userDetail := by
    decide +kernel
  obtain ⟨hproper, hwritten, -⟩ := hread _ _ hloose
  have htrim : trim " USER_DETAIL ($parameters.userId,, $payload.name ) ".toList =
      "USER_DETAIL ($parameters.userId,, $payload.name )".toList := by
    decide +kernel
  rw [htrim] at hwritten
  exact ⟨hproper, hprint userDetail hproper, hloose, hwritten,
    (hnone "USER_DETAIL USER_LIST").1 (by decide +kernel),
    (hnone "USER_DETAIL() USER_LIST").1 (by decide +kernel)⟩

end ClientRoutes.Directive

/-! ## References -/

namespace ClientRoutes.Reference

/-- A token that refers to something, and the expression that it is rendered as. -/
inductive Renders : String → String → Prop
  | query : Renders "$parameters.$query" "params"
  | parameter {path : String} (hne : path ≠ "") (hquery : path ≠ "$query") :
      Renders ("$parameters." ++ path) ("variables." ++ Casing.camelCase path)
  | payload {path : String} (hne : path ≠ "") :
      Renders ("$payload." ++ path) ("data." ++ Casing.camelCase path)
  | response {path : String} (hne : path ≠ "") :
      Renders ("$response." ++ path) ("data." ++ Casing.camelCase path)

theorem behind?_eq_some_iff {front token path : String} :
    behind? front token = some path ↔ token = front ++ path ∧ path ≠ "" := by
  rw [behind?, Option.filter_eq_some_iff, Text.stripPrefix?_eq_some_iff]
  simp

/-- A text begins with one front only if one of two fronts begins with the other. -/
theorem behind?_append {front other : String} (hfront : ¬front.toList <+: other.toList)
    (hother : ¬other.toList <+: front.toList) (path : String) :
    behind? front (other ++ path) = none := by
  rw [Option.eq_none_iff_forall_not_mem]
  intro rest hrest
  obtain ⟨htext, -⟩ := behind?_eq_some_iff.1 hrest
  have hlists := congrArg String.toList htext
  rw [String.toList_append, String.toList_append] at hlists
  have hwhole : other.toList <+: front.toList ++ rest.toList := ⟨_, hlists⟩
  rcases List.prefix_or_prefix_of_prefix hwhole (List.prefix_append _ _) with h | h
  · exact hother h
  · exact hfront h

theorem ne_query {t : String} (h : behind? "$parameters." t = none) : t ≠ "$parameters.$query" := by
  rintro rfl
  exact absurd h (by decide)

/-- A token is rendered exactly if, without the blanks around it, it has one of the four
forms, and then as this form says. -/
theorem render?_ofToken_eq_some_iff {token expression : String} :
    (ofToken token).render? = some expression ↔
      Renders (String.ofList (Text.trim token.toList)) expression := by
  unfold ofToken
  dsimp only
  generalize String.ofList (Text.trim token.toList) = t
  constructor
  · intro h
    split at h
    · next ht =>
      obtain rfl := Option.some.inj h
      rw [ht]
      exact .query
    · next ht =>
      -- The fronts are tried one after the other.
      split at h
      · next path hpath =>
        obtain ⟨rfl, hne⟩ := behind?_eq_some_iff.1 hpath
        obtain rfl := Option.some.inj h
        exact .parameter hne fun hquery => ht (by rw [hquery]; rfl)
      · split at h
        · next path hpath =>
          obtain ⟨rfl, hne⟩ := behind?_eq_some_iff.1 hpath
          obtain rfl := Option.some.inj h
          exact .payload hne
        · split at h
          · next path hpath =>
            obtain ⟨rfl, hne⟩ := behind?_eq_some_iff.1 hpath
            obtain rfl := Option.some.inj h
            exact .response hne
          · cases h
  · intro h
    cases h with
    | query => rfl
    | @parameter path hne hquery =>
      have ht : "$parameters." ++ path ≠ "$parameters.$query" := fun h =>
        hquery ((String.append_right_inj "$parameters.").1 h)
      rw [if_neg ht, behind?_eq_some_iff.2 ⟨rfl, hne⟩]
      rfl
    | @payload path hne =>
      have hparameters : behind? "$parameters." ("$payload." ++ path) = none :=
        behind?_append (by decide) (by decide) path
      rw [if_neg (ne_query hparameters), hparameters, behind?_eq_some_iff.2 ⟨rfl, hne⟩]
      rfl
    | @response path hne =>
      have hparameters : behind? "$parameters." ("$response." ++ path) = none :=
        behind?_append (by decide) (by decide) path
      have hpayload : behind? "$payload." ("$response." ++ path) = none :=
        behind?_append (by decide) (by decide) path
      rw [if_neg (ne_query hparameters), hparameters, hpayload,
        behind?_eq_some_iff.2 ⟨rfl, hne⟩]
      rfl

/-- A token is left out exactly if nothing stands behind any of the fronts. -/
theorem render?_ofToken_eq_none_iff {token : String} :
    (ofToken token).render? = none ↔
      ∀ front ∈ ["$parameters.", "$payload.", "$response."], ∀ path,
        String.ofList (Text.trim token.toList) = front ++ path → path = "" := by
  rw [Option.eq_none_iff_forall_ne_some]
  simp only [ne_eq, render?_ofToken_eq_some_iff]
  generalize String.ofList (Text.trim token.toList) = t
  constructor
  · intro h front hfront path ht
    by_contra hne
    subst ht
    simp only [List.mem_cons, List.not_mem_nil, or_false] at hfront
    rcases hfront with rfl | rfl | rfl
    · by_cases hquery : path = "$query"
      · subst hquery
        exact h _ .query
      · exact h _ (.parameter hne hquery)
    · exact h _ (.payload hne)
    · exact h _ (.response hne)
  · intro h expression hrenders
    cases hrenders with
    | query => exact absurd (h "$parameters." (by simp) "$query" rfl) (by decide)
    | parameter hne => exact hne (h _ (by simp) _ rfl)
    | payload hne => exact hne (h _ (by simp) _ rfl)
    | response hne => exact hne (h _ (by simp) _ rfl)

end ClientRoutes.Reference
