import ClientRoutes.Proofs.Settings.Precedence
import Mathlib.Data.String.Basic

/-
  The former keys of two kinds of files.

  The paths of a file are read twice. First the keys `query` and `mutation` are
  renamed to `queries` and `mutations`, letter by letter, unless the new key is
  there. Then every key is read as a kind in letters of any case, and of several
  keys of one kind the last counts. In small letters a key comes behind all its
  other spellings, so what is renamed counts above them.

  What is proved:
    1. `filePath?_renamePath` — the path of a kind after one key is renamed.
    2. `filePath?_modernize` — and after both are: that of the key in small
       letters, else that of the former key, else that of the last other spelling.
    3. `formerKey_yields_iff` — when a former key gives way to the present ones.
    4. `formerKey_prevails` — a present key in capitals that it does not give way to.
-/

namespace ClientRoutes

open Text

/-! ## Spellings of a key -/

theorem Text.le_toLower (c : Char) : c ≤ c.toLower := by
  unfold Char.toLower
  split
  · next h =>
    have hle : c.val.toNat ≤ (c.val + ('a'.val - 'A'.val)).toNat := by
      have hupper : c.val.toNat ≤ 'Z'.val.toNat := h.2
      have hZ : 'Z'.val.toNat = 90 := rfl
      have hdiff : ('a'.val - 'A'.val).toNat = 32 := rfl
      rw [UInt32.toNat_add, hdiff, Nat.mod_eq_of_lt (by omega)]
      omega
    exact hle
  · exact le_refl c

/-- In small letters a text comes behind its other spellings. -/
theorem Text.not_lt_of_map_toLower {s t : List Char} (h : s.map Char.toLower = t) : ¬t < s := by
  subst h
  induction s with
  | nil => simp
  | cons c s ih =>
    rw [List.map_cons, List.cons_lt_cons_iff]
    rintro (hlt | ⟨-, hlt⟩)
    · exact absurd hlt (not_lt.2 (le_toLower c))
    · exact ih hlt

namespace Artifact

/-- Whether a key names a kind, in letters of any case. -/
def Names (kind : Artifact) (key : String) : Prop := ofText? key = some kind

instance (kind : Artifact) : DecidablePred kind.Names :=
  fun key => inferInstanceAs (Decidable (ofText? key = some kind))

/-- The key that a kind had before. -/
def formerKey? : Artifact → Option String
  | .queries => some "query"
  | .mutations => some "mutation"
  | _ => none

theorem Names.map_toLower {kind : Artifact} {key : String} (h : kind.Names key) :
    key.toList.map Char.toLower = kind.key.toList.map Char.toLower := by
  have hsame : sameIgnoringCase kind.key key = true := by
    have hfind := List.find?_some h
    exact hfind
  exact (eq_of_beq hsame).symm

theorem names_key (kind : Artifact) : kind.Names kind.key := ofText?_key kind

/-- The key of a kind that had another one before comes behind its other
spellings. -/
theorem Names.not_lt {kind : Artifact} {key old : String} (h : kind.Names key)
    (hold : formerKey? kind = some old) : ¬kind.key < key := by
  have hsmall : kind.key.toList.map Char.toLower = kind.key.toList := by
    cases kind with
    | queries | mutations => decide
    | _ => cases hold
  rw [String.lt_iff_toList_lt]
  exact Text.not_lt_of_map_toLower (h.map_toLower.trans hsmall)

theorem not_names_formerKey {kind : Artifact} {old : String} (h : formerKey? kind = some old)
    (other : Artifact) : ¬other.Names old := by
  cases kind with
  | queries | mutations => cases h; cases other <;> decide
  | _ => cases h

end Artifact

/-! ## Renaming -/

namespace FileSettings

/-- The path that paths give for a kind: that of the last key that names it. -/
def lastPath? (paths : TextMap String) (kind : Artifact) : Option String :=
  (paths.entries.reverse.find? fun e => kind.Names e.1).map Prod.snd

theorem filePath?_eq (f : FileSettings) (kind : Artifact) :
    Source.filePath? f kind = lastPath? f.paths kind := rfl

section
variable {paths : TextMap String} {kind : Artifact} {old new : String}

theorem lastPath?_congr {others : TextMap String}
    (h : paths.entries.filter (fun e => kind.Names e.1) =
      others.entries.filter fun e => kind.Names e.1) :
    lastPath? paths kind = lastPath? others kind := by
  rw [lastPath?, lastPath?, ← List.getLast?_filter, ← List.getLast?_filter, h]

theorem lastPath?_erase {key : String} (h : ¬kind.Names key) :
    lastPath? (paths.erase key) kind = lastPath? paths kind := by
  apply lastPath?_congr
  rw [TextMap.erase, List.filter_filter]
  apply List.filter_congr
  intro e _
  by_cases hkey : e.1 = key
  · simp [hkey, h]
  · simp [hkey]

theorem filter_insertEntry {key : String} (h : ¬kind.Names key) (path : String)
    (entries : List (String × String)) :
    (TextMap.insertEntry key path entries).filter (fun e => kind.Names e.1) =
      entries.filter fun e => kind.Names e.1 := by
  induction entries with
  | nil => simp [TextMap.insertEntry, h]
  | cons e rest ih =>
    obtain ⟨k, v⟩ := e
    rw [TextMap.insertEntry]
    split
    · next hk => subst hk; simp [h]
    · split
      · simp [List.filter_cons, h]
      · simp [List.filter_cons, ih]

theorem lastPath?_insert {key : String} (h : ¬kind.Names key) (path : String) :
    lastPath? (paths.insert key path) kind = lastPath? paths kind :=
  lastPath?_congr (filter_insertEntry h path paths.entries)

/-- Renaming keys of other kinds changes nothing. -/
theorem lastPath?_renamePath (hold : ¬kind.Names old) (hnew : ¬kind.Names new) :
    lastPath? (renamePath paths old new) kind = lastPath? paths kind := by
  unfold renamePath
  cases paths.get? old with
  | none => rfl
  | some path =>
    dsimp only
    split
    · exact lastPath?_erase hold
    · rw [lastPath?_insert hnew, lastPath?_erase hold]

theorem get?_renamePath {key : String} (hold : key ≠ old) (hnew : key ≠ new) :
    (renamePath paths old new).get? key = paths.get? key := by
  unfold renamePath
  cases paths.get? old with
  | none => rfl
  | some path =>
    dsimp only
    split
    · exact TextMap.get?_erase_of_ne paths hold
    · rw [TextMap.get?_insert_of_ne _ hnew, TextMap.get?_erase_of_ne paths hold]

theorem sorted_renamePath (h : paths.Sorted) : (renamePath paths old new).Sorted := by
  unfold renamePath
  cases paths.get? old with
  | none => exact h
  | some path =>
    dsimp only
    split
    · exact TextMap.sorted_erase h old
    · exact TextMap.sorted_insert (TextMap.sorted_erase h old) new path

/-- Of the spellings of a key, the one in small letters is the last. -/
theorem lastPath?_of_get? (h : paths.Sorted) (hold : Artifact.formerKey? kind = some old)
    {path : String} (hpath : paths.get? kind.key = some path) :
    lastPath? paths kind = some path := by
  obtain ⟨front, back, hentries⟩ :=
    List.append_of_mem ((TextMap.mem_entries_iff h kind.key path).2 hpath)
  have hback : back.reverse.find? (fun e => kind.Names e.1) = none := by
    rw [List.find?_eq_none]
    intro e he
    have hlt : kind.key < e.1 := by
      have hsorted : (paths.entries.map Prod.fst).Pairwise (· < ·) := h
      rw [hentries, List.map_append, List.map_cons] at hsorted
      have htail := (List.pairwise_append.1 hsorted).2.1
      exact List.rel_of_pairwise_cons htail (List.mem_map_of_mem (List.mem_reverse.1 he))
    simpa using fun hnames : kind.Names e.1 => hnames.not_lt hold hlt
  rw [lastPath?, hentries, List.reverse_append, List.reverse_cons, List.append_assoc,
    List.find?_append, hback]
  simp [Artifact.names_key]

/-- The new key of a kind counts, else the former key, else the last other
spelling. -/
theorem filePath?_renamePath (h : paths.Sorted) (hold : Artifact.formerKey? kind = some old) :
    lastPath? (renamePath paths old kind.key) kind =
      (paths.get? kind.key).or ((paths.get? old).or (lastPath? paths kind)) := by
  have hne : kind.key ≠ old := by
    intro he
    exact Artifact.not_names_formerKey hold kind (he ▸ Artifact.names_key kind)
  have hkey : (paths.erase old).get? kind.key = paths.get? kind.key :=
    TextMap.get?_erase_of_ne paths hne
  unfold renamePath
  cases hpath : paths.get? old with
  | none =>
    cases hnew : paths.get? kind.key with
    | none => rfl
    | some new => exact lastPath?_of_get? h hold hnew
  | some path =>
    dsimp only
    have hsorted := TextMap.sorted_erase h old
    cases hnew : paths.get? kind.key with
    | none =>
      rw [TextMap.contains, hkey, hnew]
      exact lastPath?_of_get? (TextMap.sorted_insert hsorted kind.key path) hold
        (TextMap.get?_insert_self _ kind.key path)
    | some new =>
      rw [TextMap.contains, hkey, hnew]
      exact lastPath?_of_get? hsorted hold (hkey.trans hnew)

end

theorem not_names_key {kind other : Artifact} (h : kind ≠ other) : ¬kind.Names other.key := by
  rw [Artifact.Names, Artifact.ofText?_key, Option.some.injEq]
  exact Ne.symm h

/-- The path of a kind once both former keys are renamed. -/
theorem filePath?_modernize {f : FileSettings} (h : f.paths.Sorted) (kind : Artifact) :
    Source.filePath? f.modernize kind =
      match Artifact.formerKey? kind with
      | none => Source.filePath? f kind
      | some old =>
        (f.paths.get? kind.key).or ((f.paths.get? old).or (Source.filePath? f kind)) := by
  have holdQuery : Artifact.formerKey? .queries = some "query" := rfl
  have holdMutation : Artifact.formerKey? .mutations = some "mutation" := rfl
  have hquery : ∀ other : Artifact, ¬other.Names "query" :=
    Artifact.not_names_formerKey holdQuery
  have hmutation : ∀ other : Artifact, ¬other.Names "mutation" :=
    Artifact.not_names_formerKey holdMutation
  have hqueries : ∀ other : Artifact, other ≠ .queries → ¬other.Names "queries" :=
    fun other hne => (not_names_key hne :)
  have hmutations : ∀ other : Artifact, other ≠ .mutations → ¬other.Names "mutations" :=
    fun other hne => (not_names_key hne :)
  simp only [filePath?_eq, modernize]
  cases kind with
  | queries =>
    rw [lastPath?_renamePath (hmutation _) (hmutations _ (by decide))]
    exact filePath?_renamePath h holdQuery
  | mutations =>
    -- The first renaming touches neither key of mutations.
    have hold : (renamePath f.paths "query" "queries").get? "mutation" = f.paths.get? "mutation" :=
      get?_renamePath (by decide) (by decide)
    have hnew : (renamePath f.paths "query" "queries").get? "mutations" =
        f.paths.get? "mutations" :=
      get?_renamePath (by decide) (by decide)
    have hlast : lastPath? (renamePath f.paths "query" "queries") .mutations =
        lastPath? f.paths .mutations :=
      lastPath?_renamePath (hquery .mutations) (hqueries .mutations (by decide))
    rw [← hlast]
    simp only [Artifact.formerKey?, Artifact.key]
    rw [← hold, ← hnew]
    exact filePath?_renamePath (sorted_renamePath h) holdMutation
  | _ =>
    rw [lastPath?_renamePath (hmutation _) (hmutations _ (by decide)),
      lastPath?_renamePath (hquery _) (hqueries _ (by decide))]
    rfl

/-! ## Files -/

/-- Every key of the paths names a kind, or is the former key of one. -/
def KnownKeys (paths : TextMap String) : Prop :=
  ∀ key ∈ paths.keys, ∃ kind, Artifact.Names kind key ∨ Artifact.formerKey? kind = some key

instance (paths : TextMap String) : Decidable (KnownKeys paths) :=
  decidable_of_iff (∀ key ∈ paths.keys, ∃ kind ∈ Artifact.all,
    Artifact.Names kind key ∨ Artifact.formerKey? kind = some key) (by
      simp [KnownKeys, Artifact.mem_all])

theorem mem_keys_renamePath {paths : TextMap String} {old new key : String}
    (h : key ∈ (renamePath paths old new).keys) :
    key = new ∨ key ∈ paths.keys ∧ (key = old → paths.get? old = none) := by
  unfold renamePath at h
  cases hpath : paths.get? old with
  | none =>
    rw [hpath] at h
    exact .inr ⟨h, fun _ => rfl⟩
  | some path =>
    rw [hpath] at h
    have herase : key ∈ (paths.erase old).keys →
        key ∈ paths.keys ∧ (key = old → some path = none) := by
      intro hmem
      obtain ⟨hkey, hne⟩ := (TextMap.mem_keys_erase paths old key).1 hmem
      exact ⟨hkey, fun he => absurd he hne⟩
    dsimp only at h
    split at h
    · exact .inr (herase h)
    · rcases (TextMap.mem_keys_insert _ new key path).1 h with rfl | h
      · exact .inl rfl
      · exact .inr (herase h)

/-- Once the former keys are renamed, every key names a kind. -/
theorem KnownKeys.modernize {f : FileSettings} (h : KnownKeys f.paths) :
    ∀ key ∈ f.modernize.paths.keys, ∃ kind, Artifact.Names kind key := by
  have hgone : ∀ (paths : TextMap String) (key : String), key ∈ paths.keys →
      paths.get? key ≠ none := by
    intro paths key hkey
    rw [← TextMap.get?_isSome_iff, Option.isSome_iff_ne_none] at hkey
    exact hkey
  intro key hkey
  rcases mem_keys_renamePath hkey with rfl | ⟨hkey, hmutation⟩
  · exact ⟨.mutations, Artifact.names_key .mutations⟩
  · rcases mem_keys_renamePath hkey with rfl | ⟨hfirst, hquery⟩
    · exact ⟨.queries, Artifact.names_key .queries⟩
    · obtain ⟨kind, hnames | hold⟩ := h key hfirst
      · exact ⟨kind, hnames⟩
      · -- A former key would have been renamed.
        cases kind with
        | queries =>
          obtain rfl := Option.some.inj hold
          exact absurd (hquery rfl) (hgone _ _ hfirst)
        | mutations =>
          obtain rfl := Option.some.inj hold
          exact absurd (hmutation rfl) (hgone _ _ hkey)
        | _ => cases hold

theorem paths?_of_ofDocument? {document : Toml.Entries} {f : FileSettings}
    (h : ofDocument? document = some f) : paths? document = some f.paths := by
  simp only [ofDocument?, bind, pure, Option.bind_eq_some_iff, Option.some.injEq] at h
  -- The three sections and eight values before the paths.
  obtain ⟨_, _, _, _, _, _, _, _, _, _, _, _, _, _, _, _, _, _, _, _, _, _, paths, hpaths, rfl⟩ := h
  exact hpaths

theorem sorted_of_paths? {document : Toml.Entries} {paths : TextMap String}
    (h : paths? document = some paths) : paths.Sorted := by
  unfold paths? at h
  split at h
  · rw [← Option.some.inj h]
    exact TextMap.sorted_empty
  · unfold texts? at h
    split at h
    · obtain ⟨entries, -, hentries⟩ := Option.map_eq_some_iff.1 h
      rw [← hentries]
      exact TextMap.sorted_ofList entries
    · cases h

theorem sorted_paths {text : String} {f : FileSettings} (h : ofToml? text = some f) :
    f.paths.Sorted := by
  obtain ⟨document, -, hf⟩ := Option.bind_eq_some_iff.1 h
  exact sorted_of_paths? (paths?_of_ofDocument? hf)

end FileSettings

namespace Layer

theorem exists_fileFormat_iff (origin : Origin) {text : Option String} :
    (∃ format, fileFormat origin text = .ok format) ↔
      ∀ name, text = some name → (ReportFormat.ofText? name).isSome = true := by
  cases text with
  | none => simp [fileFormat]
  | some name => cases h : ReportFormat.ofText? name <;> simp [fileFormat, h]

theorem exists_filePaths (origin : Origin) {entries : List (String × String)}
    (h : ∀ e ∈ entries, ∃ kind, Artifact.Names kind e.1) :
    ∃ paths, filePaths origin entries = .ok paths := by
  induction entries with
  | nil => exact ⟨[], rfl⟩
  | cons e rest ih =>
    obtain ⟨⟨kind, hkind⟩, hrest⟩ := List.forall_mem_cons.1 h
    obtain ⟨paths, hpaths⟩ := ih hrest
    have hkind : Artifact.ofText? e.1 = some kind := hkind
    unfold filePaths at hpaths
    refine ⟨(kind, e.2) :: paths, ?_⟩
    simp [filePaths, List.mapM_cons, hkind, hpaths, bind, Except.bind, pure, Except.pure]

/-- A file whose keys all name kinds gives a layer, unless its format is none. -/
theorem exists_ofFile_iff (origin : Origin) {f : FileSettings}
    (h : ∀ key ∈ f.paths.keys, ∃ kind, Artifact.Names kind key) :
    (∃ l, ofFile origin f = .ok l) ↔
      ∀ name, f.format = some name → (ReportFormat.ofText? name).isSome = true := by
  have hentries : ∀ e ∈ f.paths.entries, ∃ kind, Artifact.Names kind e.1 :=
    fun e he => h e.1 (List.mem_map_of_mem he)
  obtain ⟨paths, hpaths⟩ := exists_filePaths origin hentries
  rw [← exists_fileFormat_iff origin]
  unfold ofFile
  cases hformat : fileFormat origin f.format with
  | error e => simp [bind, Except.bind]
  | ok format => simp [hpaths, bind, Except.bind, pure, Except.pure]

/-- Laid over settings, a file replaces the path of a kind if it gives one. -/
theorem lookup_laidOver_ofFile {scope : Scope} {file : String} {f : FileSettings} {l : Layer}
    (h : ofFile (scope.origin file) f = .ok l) (s : Settings) (kind : Artifact) :
    (l.laidOver s).paths.lookup kind = (Source.filePath? f kind).or (s.paths.lookup kind) := by
  have hgiven : l.given? s.directory (.path kind) = (Source.filePath? f kind).map some :=
    (says_ofFile h s.directory).given (.path kind)
  have hget : (l.laidOver s).paths.lookup kind =
      (l.given? s.directory (.path kind)).getD (s.paths.lookup kind) :=
    get_laidOver s (.path kind)
  rw [hget, hgiven]
  exact (or_eq_getD _ _).symm

end Layer

/-! ## Former and present keys -/

namespace FileSettings

/-- A path that a file gives under a key that names a kind. -/
def GivenFor (paths : TextMap String) (kind : Artifact) (path : String) : Prop :=
  ∃ key, kind.Names key ∧ paths.get? key = some path

theorem givenFor_lastPath? {paths : TextMap String} (h : paths.Sorted) {kind : Artifact}
    {path : String} (hpath : lastPath? paths kind = some path) : GivenFor paths kind path := by
  obtain ⟨e, he, rfl⟩ := Option.map_eq_some_iff.1 hpath
  have hnames : kind.Names e.1 := by simpa using List.find?_some he
  have hmem := List.mem_reverse.1 (List.mem_of_find?_eq_some he)
  exact ⟨e.1, hnames, (TextMap.mem_entries_iff h e.1 e.2).1 hmem⟩

theorem lastPath?_isSome_iff {paths : TextMap String} {kind : Artifact} :
    (lastPath? paths kind).isSome = true ↔ ∃ key ∈ paths.keys, kind.Names key := by
  rw [lastPath?, Option.isSome_map, List.find?_isSome, TextMap.keys]
  simp

/-- A file whose keys are all known gives a layer, unless it names a format that does
not exist. For a kind without a former key the renaming does not matter: its path is
that of the last key that names it, or what was settled before. A kind with a former
key takes its path from its key in small letters, then from the former key, and only
then from another spelling. So a former key counts if it stands alone; beside keys
that name the kind it gives way to them exactly if one of them is in small letters or
one of them gives the same path. -/
theorem formerKey_yields_iff {text : String} {f : FileSettings} (hf : ofToml? text = some f)
    (hkeys : KnownKeys f.paths) (scope : Scope) (file : String) :
    ((∃ l, Layer.ofFile (scope.origin file) f.modernize = .ok l) ↔
      ∀ name, f.format = some name → (ReportFormat.ofText? name).isSome = true) ∧
    ∀ l, Layer.ofFile (scope.origin file) f.modernize = .ok l →
      ∀ (s : Settings) (kind : Artifact),
        let used := (l.laidOver s).paths.lookup kind
        (Artifact.formerKey? kind = none →
          used = (lastPath? f.paths kind).or (s.paths.lookup kind)) ∧
        ∀ old, Artifact.formerKey? kind = some old →
          used = (f.paths.get? kind.key).or ((f.paths.get? old).or
            ((lastPath? f.paths kind).or (s.paths.lookup kind))) ∧
          ((∀ key ∈ f.paths.keys, ¬kind.Names key) →
            ∀ path, f.paths.get? old = some path → used = some path) ∧
          ((∃ key ∈ f.paths.keys, kind.Names key) →
            ((∃ path, used = some path ∧ GivenFor f.paths kind path) ↔
              kind.key ∈ f.paths.keys ∨
                ∀ path, f.paths.get? old = some path → GivenFor f.paths kind path)) := by
  have hsorted := sorted_paths hf
  refine ⟨Layer.exists_ofFile_iff _ hkeys.modernize, ?_⟩
  intro l hl s kind used
  have hused : used = (Source.filePath? f.modernize kind).or (s.paths.lookup kind) :=
    Layer.lookup_laidOver_ofFile hl s kind
  rw [filePath?_modernize hsorted] at hused
  constructor
  · intro hnone
    rw [hused, hnone]
    rfl
  · intro old hold
    rw [hold] at hused
    simp only [Option.or_assoc, filePath?_eq] at hused
    refine ⟨hused, fun halone path hpath => ?_, fun hnamed => ?_⟩
    · have hnew : f.paths.get? kind.key = none := by
        rw [← Option.not_isSome_iff_eq_none, TextMap.get?_isSome_iff]
        exact fun hmem => halone _ hmem (Artifact.names_key kind)
      rw [hused, hnew, hpath]
      rfl
    · rw [← TextMap.get?_isSome_iff, hused]
      cases hnew : f.paths.get? kind.key with
      | some path =>
        exact iff_of_true ⟨path, rfl, kind.key, Artifact.names_key kind, hnew⟩ (.inl rfl)
      | none =>
        cases hformer : f.paths.get? old with
        | some path => simp
        | none =>
          obtain ⟨path, hpath⟩ := Option.isSome_iff_exists.1 (lastPath?_isSome_iff.2 hnamed)
          refine iff_of_true ⟨path, by simp [hpath], givenFor_lastPath? hsorted hpath⟩ (.inr ?_)
          simp

/-- A file with a former key alone, and with another one beside two present keys. -/
def migratingText : String :=
  "[paths]\nMUTATIONS = \"a.ts\"\nmutations = \"m.ts\"\nmutation = \"o.ts\"\nquery = \"q.ts\"\n"

/-- The settings in a file that gives only paths. -/
def pathsOnly (entries : List (String × String)) : FileSettings where
  uri := none
  username := none
  password := none
  createSchema := none
  projectTemplate := none
  format := none
  roots := .empty
  aliasDepth := none
  paths := ⟨entries⟩

theorem formerKey_yields_iff_migrating :
    ∃ f l, ofToml? migratingText = some f ∧ KnownKeys f.paths ∧
      Layer.ofFile (Scope.project.origin "/w/swagger-autogen.toml") f.modernize = .ok l ∧
      (l.laidOver (.builtIn "/w")).paths.lookup .queries = some "q.ts" ∧
      ∃ path, (l.laidOver (.builtIn "/w")).paths.lookup .mutations = some path ∧
        GivenFor f.paths .mutations path := by
  let f := pathsOnly
    [("MUTATIONS", "a.ts"), ("mutation", "o.ts"), ("mutations", "m.ts"), ("query", "q.ts")]
  have hf : ofToml? migratingText = some f := by decide +kernel
  have hkeys : KnownKeys f.paths := by decide
  obtain ⟨hok, hall⟩ := formerKey_yields_iff hf hkeys .project "/w/swagger-autogen.toml"
  obtain ⟨l, hl⟩ := hok.2 fun name hname => nomatch hname
  have hqueries := (hall l hl (.builtIn "/w") .queries).2 "query" rfl
  have hmutations := (hall l hl (.builtIn "/w") .mutations).2 "mutation" rfl
  refine ⟨f, l, hf, hkeys, hl, hqueries.2.1 (by decide) "q.ts" rfl, ?_⟩
  exact (hmutations.2.2 ⟨"MUTATIONS", by decide, by decide⟩).2 (.inl (by decide))

/-- A file with a key of queries in another spelling and their former key. -/
def capitalText : String := "[paths]\nQueries = \"new.ts\"\nquery = \"old.ts\"\n"

/-- `Queries` names the queries, but the path of `query` is used. -/
theorem formerKey_prevails :
    ∃ f l, ofToml? capitalText = some f ∧ KnownKeys f.paths ∧
      Artifact.Names .queries "Queries" ∧ f.paths.get? "Queries" = some "new.ts" ∧
      Layer.ofFile (Scope.project.origin "/w/swagger-autogen.toml") f.modernize = .ok l ∧
      (l.laidOver (.builtIn "/w")).paths.lookup .queries = some "old.ts" ∧
      ¬GivenFor f.paths .queries "old.ts" := by
  let f := pathsOnly [("Queries", "new.ts"), ("query", "old.ts")]
  have hlist : f.paths.keys = ["Queries", "query"] := rfl
  have hf : ofToml? capitalText = some f := by decide +kernel
  have hkeys : KnownKeys f.paths := by decide
  obtain ⟨l, hl⟩ := (Layer.exists_ofFile_iff
    (Scope.project.origin "/w/swagger-autogen.toml") hkeys.modernize).2
      fun name hname => nomatch hname
  refine ⟨f, l, hf, hkeys, by decide, rfl, hl, ?_, ?_⟩
  · rw [Layer.lookup_laidOver_ofFile hl]
    decide +kernel
  · rintro ⟨key, hnames, hget⟩
    have hkey : key ∈ f.paths.keys := (TextMap.get?_isSome_iff _ _).1 (by rw [hget]; rfl)
    rw [hlist] at hkey
    simp only [List.mem_cons, List.not_mem_nil, or_false] at hkey
    rcases hkey with rfl | rfl
    · exact absurd hget (by decide)
    · exact absurd hnames (by decide)

end FileSettings

end ClientRoutes
