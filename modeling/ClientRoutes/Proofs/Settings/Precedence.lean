import ClientRoutes.Settings.Resolution
import Mathlib.Data.List.Forall2

/-
  Which source a setting is settled by.

  The sources of a run are, from the lowest to the highest: what is built in,
  the user's file, the project's file, the environment and the command line.
  `Source.given?` says what a source gives for a setting, read off the source
  itself; `SettledBy` says which source is the highest that gives something.

  What is proved:
    1. `get_laidOver`, `get?_originsOver` — one layer replaces a value and its
       origin for exactly the settings that it speaks of.
    2. `Settled.layer`, `Settled.combine` — layers one over the other settle
       every setting by the highest of their sources.
    3. `resolve_settled` — so are the settings of a directory; origins are
       recorded for exactly their keys, and the overridden ones are exactly
       those that some source above what is built in gives.
-/

namespace ClientRoutes

/-- What a setting holds. -/
def Setting.Value : Setting → Type
  | .createSchema => Bool
  | .format => ReportFormat
  | .aliases => AliasMap
  | .aliasDepth => Nat
  | .uri | .username | .password | .projectTemplate | .path _ => Option String

/-- What the settings hold for a setting. A kind of file without a path of its
own holds nothing. -/
def Settings.get (s : Settings) : (x : Setting) → x.Value
  | .uri => s.uri
  | .username => s.username
  | .password => s.password
  | .createSchema => s.createSchema
  | .projectTemplate => s.projectTemplate
  | .format => s.format
  | .aliases => s.aliases
  | .aliasDepth => s.aliasDepth
  | .path kind => s.paths.lookup kind

/-- Where a run may take the values of settings from. -/
inductive Source where
  | builtIn
  | file (scope : Scope) (path : String) (settings : FileSettings)
  | environment (env : Environment)
  | commandLine (o : Overrides)

namespace Source

/-- The path that a file gives for a kind: that of the last key that names it. -/
def filePath? (f : FileSettings) (kind : Artifact) : Option String :=
  (f.paths.entries.reverse.find? fun e => Artifact.ofText? e.1 = some kind).map Prod.snd

/-- What a file gives for a setting. A map without aliases gives none. -/
def fileGiven? (directory : String) (f : FileSettings) : (x : Setting) → Option x.Value
  | .uri => f.uri.map some
  | .username => f.username.map some
  | .password => f.password.map some
  | .createSchema => f.createSchema
  | .projectTemplate => f.projectTemplate.map some
  | .format => f.format.bind ReportFormat.ofText?
  | .aliases =>
    if f.roots.isEmpty then none else some ((AliasMap.new directory).insertAll f.roots.entries)
  | .aliasDepth => f.aliasDepth
  | .path kind => (filePath? f kind).map some

/-- What the environment gives for a setting. A format or a depth that cannot be
read is none. -/
def environmentGiven? (env : Environment) : (x : Setting) → Option x.Value
  | .uri => (env.get? "SWAGGER_AUTOGEN_URI").map some
  | .format => (env.get? "SWAGGER_AUTOGEN_FORMAT").bind ReportFormat.ofText?
  | .createSchema => (env.get? "SWAGGER_AUTOGEN_CREATE_SCHEMA").map Layer.isYes
  | .aliasDepth =>
    (env.get? "SWAGGER_AUTOGEN_ALIAS_DEPTH").bind fun s => Text.readUInt64? s.toList
  | .username | .password | .projectTemplate | .aliases | .path _ => none

/-- What a command line gives for a setting. -/
def commandLineGiven? (o : Overrides) : (x : Setting) → Option x.Value
  | .uri => o.uri.map some
  | .format => o.format
  | .createSchema => o.createSchema
  | .aliasDepth => o.aliasDepth
  | .username | .password | .projectTemplate | .aliases | .path _ => none

/-- What a source gives for a setting, if anything. What is built in gives
something for every setting. -/
def given? (directory : String) : Source → (x : Setting) → Option x.Value
  | .builtIn, x => some ((Settings.builtIn directory).get x)
  | .file _ _ f, x => fileGiven? directory f x
  | .environment env, x => environmentGiven? env x
  | .commandLine o, x => commandLineGiven? o x

/-- The origin of what a source gives. -/
def origin : Source → Setting → Origin
  | .builtIn, _ => .builtIn
  | .file scope path _, _ => scope.origin path
  | .environment _, x => .environment (Layer.variableName x)
  | .commandLine _, x => .commandLine (Layer.flagName x)

/-- Of some sources, the lowest first, this is the highest that gives a setting a
value, and it gives this one. -/
def SettledBy (directory : String) (sources : List Source) (x : Setting) (source : Source)
    (value : x.Value) : Prop :=
  ∃ lower upper, sources = lower ++ source :: upper ∧ source.given? directory x = some value ∧
    ∀ s ∈ upper, s.given? directory x = none

theorem SettledBy.same {directory : String} {sources : List Source} {x : Setting}
    {source next : Source} {value : x.Value} (h : SettledBy directory sources x source value)
    (hn : next.given? directory x = none) :
    SettledBy directory (sources ++ [next]) x source value := by
  obtain ⟨lower, upper, rfl, hv, hu⟩ := h
  refine ⟨lower, upper ++ [next], by simp, hv, ?_⟩
  intro s hs
  rcases List.mem_append.1 hs with hs | hs
  · exact hu s hs
  · rw [List.mem_singleton.1 hs]; exact hn

theorem SettledBy.next {directory : String} (sources : List Source) {x : Setting}
    {next : Source} {value : x.Value} (hn : next.given? directory x = some value) :
    SettledBy directory (sources ++ [next]) x next value :=
  ⟨sources, [], rfl, hn, by simp⟩

end Source

/-! ## One layer -/

/-- A map whose keys all differ gives the same value from either end. -/
theorem Assoc.lookup_reverse {κ α : Type} [DecidableEq κ] {entries : List (κ × α)}
    (h : (entries.map Prod.fst).Nodup) (key : κ) :
    entries.reverse.lookup key = entries.lookup key := by
  induction entries with
  | nil => rfl
  | cons e rest ih =>
    obtain ⟨k, v⟩ := e
    rw [List.map_cons, List.nodup_cons] at h
    rw [List.reverse_cons, List.lookup_append, ih h.2, List.lookup_cons]
    by_cases hk : key = k
    · subst hk
      have hrest : rest.lookup key = none := by
        rw [List.lookup_eq_none_iff]
        intro p hp
        have hne : key ≠ p.1 := fun he => h.1 (List.mem_map.2 ⟨p, hp, he.symm⟩)
        simpa using hne
      simp [hrest]
    · have hb : (key == k) = false := by simpa using hk
      simp [List.lookup_cons, hb]

namespace Layer

variable {directory : String} {l : Layer}

/-- What a layer gives for a setting, if it speaks of it. -/
def given? (directory : String) (l : Layer) : (x : Setting) → Option x.Value
  | .uri => l.uri.map some
  | .username => l.username.map some
  | .password => l.password.map some
  | .createSchema => l.createSchema
  | .projectTemplate => l.projectTemplate.map some
  | .format => l.format
  | .aliases => if l.roots.isEmpty then none else some ((AliasMap.new directory).insertAll l.roots)
  | .aliasDepth => l.aliasDepth
  | .path kind => (l.paths.reverse.lookup kind).map some

theorem lookup_overPaths (new old : PathOverrides) (kind : Artifact) :
    (overPaths new old).lookup kind = (new.reverse.lookup kind).or (old.lookup kind) := by
  induction new generalizing old with
  | nil => simp [overPaths]
  | cons e rest ih =>
    obtain ⟨k, path⟩ := e
    have hstep : overPaths ((k, path) :: rest) old = overPaths rest (Assoc.set k path old) := rfl
    rw [hstep, ih, List.reverse_cons, List.lookup_append, Option.or_assoc]
    congr 1
    by_cases hk : kind = k
    · subst hk
      rw [Assoc.lookup_set_self]; simp
    · have hb : (kind == k) = false := by simpa using hk
      rw [Assoc.lookup_set_of_ne hk]; simp [List.lookup_cons, hb]

theorem nodup_overPaths (new : PathOverrides) {old : PathOverrides}
    (h : (old.map Prod.fst).Nodup) : ((overPaths new old).map Prod.fst).Nodup := by
  induction new generalizing old with
  | nil => exact h
  | cons e rest ih =>
    apply ih
    rw [Assoc.keys_set]
    split
    · exact h
    · next hk =>
      refine List.nodup_append.2 ⟨h, by simp, ?_⟩
      intro a ha b hb
      rw [List.mem_singleton.1 hb]
      exact fun he => hk (he ▸ ha)

/-- A layer speaks of the settings that it gives a value. -/
theorem defines_eq (x : Setting) : l.defines x = (l.given? directory x).isSome := by
  cases x with
  | uri => exact (Option.isSome_map (f := some)).symm
  | username => exact (Option.isSome_map (f := some)).symm
  | password => exact (Option.isSome_map (f := some)).symm
  | createSchema => rfl
  | projectTemplate => exact (Option.isSome_map (f := some)).symm
  | format => rfl
  | aliases => unfold defines given?; cases l.roots.isEmpty <;> rfl
  | aliasDepth => rfl
  | path kind =>
    have h : (l.paths.reverse.lookup kind).isSome = (l.paths.lookup kind).isSome := by
      rw [Bool.eq_iff_iff]; simp [List.lookup_isSome_iff]
    exact h.symm.trans (Option.isSome_map (f := some)).symm

theorem or_eq_getD {α : Type} (new old : Option α) : new.or old = (new.map some).getD old := by
  cases new <;> rfl

/-- A layer replaces the value of a setting if it gives one. -/
theorem get_laidOver (s : Settings) (x : Setting) :
    (l.laidOver s).get x = (l.given? s.directory x).getD (s.get x) := by
  cases x with
  | uri => exact Option.orElse_eq_or.trans (or_eq_getD l.uri s.uri)
  | username => exact Option.orElse_eq_or.trans (or_eq_getD l.username s.username)
  | password => exact Option.orElse_eq_or.trans (or_eq_getD l.password s.password)
  | createSchema => rfl
  | projectTemplate => exact Option.orElse_eq_or.trans (or_eq_getD l.projectTemplate s.projectTemplate)
  | format => rfl
  | aliases => unfold Settings.get laidOver given?; cases l.roots.isEmpty <;> rfl
  | aliasDepth => rfl
  | path kind =>
    exact (lookup_overPaths l.paths s.paths kind).trans (or_eq_getD _ _)

end Layer

/-! ## Origins -/

theorem Setting.key_injective {x y : Setting} (h : x.key = y.key) : x = y := by
  have he : some x = some y := by rw [← Setting.ofKey?_key x, ← Setting.ofKey?_key y, h]
  exact Option.some.inj he

namespace Provenance

variable {origin : Setting → Origin}

theorem get?_setAll (p : Provenance) (settings : List Setting) (x : Setting) :
    (p.setAll settings origin).get? x.key =
      if x ∈ settings then some (origin x) else p.get? x.key := by
  induction settings generalizing p with
  | nil => simp [setAll]
  | cons y rest ih =>
    have hstep : p.setAll (y :: rest) origin = (p.set y.key (origin y)).setAll rest origin := rfl
    rw [hstep, ih]
    by_cases hxy : x = y
    · subst hxy; simp [get?_set_self]
    · have hk : x.key ≠ y.key := fun he => hxy (Setting.key_injective he)
      simp [hxy, get?_set_of_ne _ hk]

theorem mem_keys_setAll (p : Provenance) (settings : List Setting) (key : String) :
    key ∈ (p.setAll settings origin).origins.keys ↔
      (∃ x ∈ settings, x.key = key) ∨ key ∈ p.origins.keys := by
  induction settings generalizing p with
  | nil => simp [setAll]
  | cons y rest ih =>
    have hstep : p.setAll (y :: rest) origin = (p.set y.key (origin y)).setAll rest origin := rfl
    rw [hstep, ih, set, TextMap.mem_keys_insert, ← or_assoc]
    refine or_congr ?_ Iff.rfl
    simp [or_comm, eq_comm]

theorem sorted_setAll {p : Provenance} (h : p.origins.Sorted) (settings : List Setting) :
    (p.setAll settings origin).origins.Sorted := by
  induction settings generalizing p with
  | nil => exact h
  | cons y rest ih => exact ih (TextMap.sorted_insert h y.key (origin y))

end Provenance

/-- A layer replaces the origin of a setting if it speaks of it. -/
theorem Layer.get?_originsOver (l : Layer) (p : Provenance) (x : Setting) :
    (l.originsOver p).get? x.key = if l.defines x then some (l.origin x) else p.get? x.key := by
  rw [Layer.originsOver, Provenance.get?_setAll]
  simp [Setting.mem_all]

/-! ## Layers one over the other -/

/-- Settings with their origins, of which every one is settled by the highest of
some sources. -/
structure Settled (directory : String) (sources : List Source) (s : Settings) (p : Provenance) :
    Prop where
  directory_eq : s.directory = directory
  value : ∀ x, ∃ source, Source.SettledBy directory sources x source (s.get x) ∧
    p.get? x.key = some (source.origin x)
  sorted : p.origins.Sorted
  mem_keys : ∀ key, key ∈ p.origins.keys ↔ ∃ x : Setting, x.key = key

/-- A layer says what a source gives. -/
structure Layer.Says (l : Layer) (directory : String) (source : Source) : Prop where
  given : ∀ x, l.given? directory x = source.given? directory x
  origin : ∀ x, l.origin x = source.origin x

namespace Settled

variable {directory : String} {sources : List Source} {s : Settings} {p : Provenance}

theorem builtIn (directory : String) :
    Settled directory [.builtIn] (Settings.builtIn directory) Provenance.builtIn where
  directory_eq := rfl
  value := by
    intro x
    refine ⟨.builtIn, Source.SettledBy.next [] rfl, ?_⟩
    rw [Provenance.builtIn, Provenance.get?_setAll, if_pos (Setting.mem_all x)]
    rfl
  sorted := Provenance.sorted_setAll TextMap.sorted_empty Setting.all
  mem_keys := by
    intro key
    rw [Provenance.builtIn, Provenance.mem_keys_setAll]
    simp [Setting.mem_all, Provenance.empty, TextMap.keys, TextMap.empty]

/-- One more layer keeps the settings settled, by its source on top. -/
theorem layer (h : Settled directory sources s p) {l : Layer} {source : Source}
    (hl : l.Says directory source) :
    Settled directory (sources ++ [source]) (l.laidOver s) (l.originsOver p) where
  directory_eq := h.directory_eq
  value := by
    intro x
    obtain ⟨old, hold, horigin⟩ := h.value x
    have hget := Layer.get_laidOver (l := l) s x
    have horig := Layer.get?_originsOver l p x
    have hdef : l.defines x = (l.given? directory x).isSome := Layer.defines_eq x
    rw [h.directory_eq] at hget
    rw [hdef] at horig
    rw [hl.given] at hget horig
    -- Either the new source is silent and the old one stays, or it is now the highest.
    cases hg : source.given? directory x with
    | none =>
      rw [hg] at hget horig
      exact ⟨old, by rw [hget]; exact hold.same hg, horig.trans horigin⟩
    | some v =>
      rw [hg] at hget horig
      refine ⟨source, ?_, ?_⟩
      · rw [hget]; exact Source.SettledBy.next sources hg
      · rw [← hl.origin]; exact horig
  sorted := Provenance.sorted_setAll h.sorted _
  mem_keys := by
    intro key
    rw [Layer.originsOver, Provenance.mem_keys_setAll, h.mem_keys]
    constructor
    · rintro (⟨x, -, hx⟩ | hx)
      · exact ⟨x, hx⟩
      · exact hx
    · exact Or.inr

/-- Any number of layers, each saying what its source gives. -/
theorem combine {layers : List Layer} {upper : List Source}
    (hs : List.Forall₂ (fun l source => l.Says directory source) layers upper)
    (h : Settled directory sources s p) :
    Settled directory (sources ++ upper) (Resolution.combine layers s)
      (Resolution.combineOrigins layers p) := by
  induction hs generalizing sources s p with
  | nil => rw [List.append_nil]; exact h
  | cons hl _ ih => rw [List.append_cons]; exact ih (h.layer hl)

end Settled

/-! ## What the layers of a run say -/

namespace Layer

theorem fileFormat_eq_ok {origin : Origin} {text : Option String} {format : Option ReportFormat}
    (h : fileFormat origin text = .ok format) : format = text.bind ReportFormat.ofText? := by
  cases text with
  | none => cases h; rfl
  | some s =>
    rw [fileFormat] at h
    cases hs : ReportFormat.ofText? s with
    | none => rw [hs] at h; cases h
    | some f => rw [hs] at h; cases h; exact hs.symm

/-- The paths that a file gives, seen from its last key. -/
theorem lookup_filePaths {origin : Origin} {entries : List (String × String)}
    {paths : PathOverrides} (h : filePaths origin entries = .ok paths) (kind : Artifact) :
    paths.reverse.lookup kind =
      (entries.reverse.find? fun e => Artifact.ofText? e.1 = some kind).map Prod.snd := by
  induction entries generalizing paths with
  | nil => cases h; rfl
  | cons e rest ih =>
    obtain ⟨key, path⟩ := e
    cases hk : Artifact.ofText? key with
    | none => simp [filePaths, hk, bind, Except.bind] at h
    | some k =>
      cases hr : filePaths origin rest with
      | error e =>
        have hm : filePaths origin ((key, path) :: rest) = .error e := by
          unfold filePaths at hr
          simp [filePaths, List.mapM_cons, hk, hr, bind, Except.bind]
        rw [hm] at h; cases h
      | ok tail =>
        -- The last entry of a kind counts, so the rest is asked first.
        have hm : filePaths origin ((key, path) :: rest) = .ok ((k, path) :: tail) := by
          unfold filePaths at hr
          simp [filePaths, List.mapM_cons, hk, hr, bind, Except.bind, pure, Except.pure]
        obtain rfl := Except.ok.inj (hm.symm.trans h)
        rw [List.reverse_cons, List.reverse_cons, List.lookup_append, List.find?_append, ih hr,
          Option.map_or]
        congr 1
        by_cases he : kind = k
        · subst he; simp [hk]
        · have hb : (kind == k) = false := by simpa using he
          simp [List.lookup_cons, hb, hk, Ne.symm he]

theorem says_ofFile {scope : Scope} {path : String} {f : FileSettings} {l : Layer}
    (h : ofFile (scope.origin path) f = .ok l) (directory : String) :
    l.Says directory (.file scope path f) := by
  unfold ofFile at h
  cases hf : fileFormat (scope.origin path) f.format with
  | error e => simp [hf, bind, Except.bind] at h
  | ok format =>
    cases hp : filePaths (scope.origin path) f.paths.entries with
    | error e => simp [hf, hp, bind, Except.bind] at h
    | ok paths =>
      simp only [hf, hp, bind, Except.bind, pure, Except.pure, Except.ok.injEq] at h
      subst h
      refine ⟨?_, fun _ => rfl⟩
      intro x
      cases x with
      | format => exact fileFormat_eq_ok hf
      | path kind =>
        -- A kind may be named twice: the last key counts, which is the first from behind.
        have hn : ((overPaths paths []).map Prod.fst).Nodup := nodup_overPaths paths (by simp)
        have hl := lookup_overPaths paths [] kind
        rw [List.lookup_nil, Option.or_none, lookup_filePaths hp] at hl
        exact congrArg (Option.map some) ((Assoc.lookup_reverse hn kind).trans hl)
      | _ => rfl

theorem says_ofEnvironment (env : Environment) (directory : String) :
    (ofEnvironment env).Says directory (.environment env) :=
  ⟨fun x => by cases x <;> rfl, fun _ => rfl⟩

theorem says_ofOverrides (o : Overrides) (directory : String) :
    (ofOverrides o).Says directory (.commandLine o) :=
  ⟨fun x => by cases x <;> rfl, fun _ => rfl⟩

end Layer

/-! ## Settings that are not built in -/

theorem Source.origin_eq_builtIn_iff {source : Source} {x : Setting} :
    source.origin x = .builtIn ↔ source = .builtIn := by
  cases source with
  | file scope path f => cases scope <;> simp [origin, Scope.origin]
  | _ => simp [origin]

theorem Source.SettledBy.origin_ne_builtIn_iff {directory : String} {upper : List Source}
    {x : Setting} {source : Source} {value : x.Value}
    (h : SettledBy directory (.builtIn :: upper) x source value) (hu : .builtIn ∉ upper) :
    source.origin x ≠ .builtIn ↔ ∃ s ∈ upper, (s.given? directory x).isSome := by
  obtain ⟨lower, rest, heq, hv, hnone⟩ := h
  cases lower with
  | nil =>
    -- Nothing above what is built in gives a value.
    obtain ⟨rfl, rfl⟩ := List.cons.inj heq
    refine iff_of_false (fun hne => hne rfl) ?_
    rintro ⟨s, hs, hsome⟩
    rw [hnone s hs] at hsome
    cases hsome
  | cons b lower =>
    obtain ⟨-, rfl⟩ := List.cons.inj heq
    have hmem : source ∈ lower ++ source :: rest := by simp
    refine iff_of_true ?_ ⟨source, hmem, by rw [hv]; rfl⟩
    intro he
    exact hu (origin_eq_builtIn_iff.1 he ▸ hmem)

theorem Setting.nodup_keys (settings : List Setting) (h : settings.Nodup) :
    (settings.map Setting.key).Nodup :=
  List.pairwise_map.2 (h.imp fun hne he => hne (Setting.key_injective he))

namespace Settled

variable {directory : String} {upper : List Source} {s : Settings} {p : Provenance}

theorem keys_perm (h : Settled directory upper s p) :
    (p.entries.map Prod.fst).Perm (Setting.all.map Setting.key) := by
  refine (List.perm_ext_iff_of_nodup h.sorted.nodup ?_).2 ?_
  · exact Setting.nodup_keys _ (by decide)
  · intro key
    rw [h.mem_keys, List.mem_map]
    simp [Setting.mem_all]

theorem mem_overridden (h : Settled directory (.builtIn :: upper) s p) (hu : .builtIn ∉ upper)
    (x : Setting) :
    x.key ∈ p.overridden.map Prod.fst ↔ ∃ s ∈ upper, (s.given? directory x).isSome := by
  obtain ⟨source, hsource, horigin⟩ := h.value x
  rw [← hsource.origin_ne_builtIn_iff hu, List.mem_map]
  constructor
  · rintro ⟨⟨key, origin⟩, he, rfl⟩
    obtain ⟨hmem, hne⟩ := List.mem_filter.1 he
    have hget : p.get? x.key = some origin := (TextMap.mem_entries_iff h.sorted _ _).1 hmem
    rw [horigin] at hget
    rw [Option.some.inj hget]
    simpa using hne
  · intro hne
    refine ⟨(x.key, source.origin x), List.mem_filter.2 ⟨?_, by simpa using hne⟩, rfl⟩
    exact (TextMap.mem_entries_iff h.sorted _ _).2 horigin

theorem overridden_perm (h : Settled directory (.builtIn :: upper) s p)
    (hu : .builtIn ∉ upper) :
    (p.overridden.map Prod.fst).Perm ((Setting.all.filter fun x =>
      upper.any fun s => (s.given? directory x).isSome).map Setting.key) := by
  refine (List.perm_ext_iff_of_nodup ?_ ?_).2 ?_
  · exact h.sorted.nodup.sublist (List.filter_sublist.map Prod.fst)
  · exact Setting.nodup_keys _ ((by decide : Setting.all.Nodup).filter _)
  · intro key
    constructor
    · intro hk
      have hall : key ∈ p.origins.keys := (List.filter_sublist.map Prod.fst).subset hk
      obtain ⟨x, rfl⟩ := (h.mem_keys key).1 hall
      refine List.mem_map_of_mem (List.mem_filter.2 ⟨Setting.mem_all x, ?_⟩)
      exact List.any_eq_true.2 ((h.mem_overridden hu x).1 hk)
    · intro hk
      obtain ⟨x, hx, rfl⟩ := List.mem_map.1 hk
      exact (h.mem_overridden hu x).2 (List.any_eq_true.1 (List.mem_filter.1 hx).2)

end Settled

/-! ## The settings of a directory -/

namespace Resolution

variable {tree : FileTree} {env : Environment} {directory : String} {o : Overrides}

/-- What is read from the settings file at a path, if there is one: the path and
the settings, under their present names. -/
def FileAt (tree : FileTree) (path? : Option String) (file? : Option (String × FileSettings)) :
    Prop :=
  (path? = none ∧ file? = none) ∨
    ∃ path text f, path? = some path ∧ tree.read? path = some text ∧
      FileSettings.ofToml? text = some f ∧ file? = some (path, f.modernize)

/-- The sources above what is built in, the lowest first. -/
def sources (user project : Option (String × FileSettings)) (env : Environment)
    (o : Overrides) : List Source :=
  (user.map fun e => Source.file .user e.1 e.2).toList ++
    (project.map fun e => Source.file .project e.1 e.2).toList ++
      [.environment env, .commandLine o]

theorem builtIn_not_mem_sources (user project : Option (String × FileSettings)) :
    Source.builtIn ∉ sources user project env o := by
  cases user <;> cases project <;> simp [sources]

theorem mapM_fileLayer {scope : Scope} {path? : Option String} {ls : List Layer}
    (h : (path?.toList.map (scope, ·)).mapM (fileLayer tree) = .ok ls) (directory : String) :
    ∃ file?, FileAt tree path? file? ∧
      List.Forall₂ (fun l source => l.Says directory source) ls
        (file?.map fun e => Source.file scope e.1 e.2).toList := by
  cases path? with
  | none => cases h; exact ⟨none, .inl ⟨rfl, rfl⟩, .nil⟩
  | some path =>
    cases hl : fileLayer tree (scope, path) with
    | error e => simp [List.mapM_cons, hl, bind, Except.bind] at h
    | ok l =>
      obtain rfl : [l] = ls := by
        simpa [List.mapM_cons, hl, bind, Except.bind, pure, Except.pure] using h
      rw [fileLayer] at hl
      cases ht : tree.read? path with
      | none => simp [ht] at hl
      | some text =>
        cases hf : FileSettings.ofToml? text with
        | none => simp [ht, hf] at hl
        | some f =>
          simp only [ht, hf] at hl
          refine ⟨some (path, f.modernize), .inr ⟨path, text, f, rfl, ht, hf, rfl⟩, ?_⟩
          exact .cons (Layer.says_ofFile hl directory) .nil

/-- The layers of a run say what its sources give. -/
theorem says_layers {ls : List Layer} (h : layers tree env directory o = .ok ls) :
    ∃ user project, FileAt tree ((userPath? env).filter tree.contains) user ∧
      FileAt tree ((projectPaths directory).find? tree.contains) project ∧
      List.Forall₂ (fun l source => l.Says directory source) ls
        (sources user project env o) := by
  unfold layers foundFiles at h
  rw [List.mapM_append] at h
  cases hu : (((userPath? env).filter tree.contains).toList.map (Scope.user, ·)).mapM
      (fileLayer tree) with
  | error e => simp [hu, bind, Except.bind] at h
  | ok userLayers =>
    cases hp : (((projectPaths directory).find? tree.contains).toList.map
        (Scope.project, ·)).mapM (fileLayer tree) with
    | error e => simp [hu, hp, bind, Except.bind] at h
    | ok projectLayers =>
      obtain ⟨user, huser, hus⟩ := mapM_fileLayer hu directory
      obtain ⟨project, hproject, hps⟩ := mapM_fileLayer hp directory
      refine ⟨user, project, huser, hproject, ?_⟩
      simp only [hu, hp, bind, Except.bind, pure, Except.pure, Except.ok.injEq] at h
      subst h
      refine List.rel_append (List.rel_append hus hps) ?_
      exact .cons (Layer.says_ofEnvironment env directory)
        (.cons (Layer.says_ofOverrides o directory) .nil)

/-- Settings with their origins, settled by the sources `upper` over what is built
in. -/
structure SettledFrom (directory : String) (upper : List Source) (r : Resolution) : Prop where
  /-- A setting has the value of the highest source that gives one, and that source
  is its recorded origin. -/
  value : ∀ x, ∃ source,
    Source.SettledBy directory (.builtIn :: upper) x source (r.settings.get x) ∧
      r.provenance.get? x.key = some (source.origin x)
  /-- Origins are recorded for exactly the keys of the settings. -/
  keys : (r.provenance.entries.map Prod.fst).Perm (Setting.all.map Setting.key)
  size : r.provenance.size = 18
  /-- The overridden settings are those that a source above what is built in gives. -/
  overridden : (r.provenance.overridden.map Prod.fst).Perm ((Setting.all.filter fun x =>
    upper.any fun s => (s.given? directory x).isSome).map Setting.key)

/-- The settings of a directory are settled by its user's file, its project's file,
the environment and the command line. -/
theorem resolve_settled {r : Resolution} (h : resolve tree env directory o = .ok r) :
    ∃ user project, FileAt tree ((userPath? env).filter tree.contains) user ∧
      FileAt tree ((projectPaths directory).find? tree.contains) project ∧
      SettledFrom directory (sources user project env o) r := by
  unfold resolve at h
  cases hl : layers tree env directory o with
  | error e => simp [hl, bind, Except.bind] at h
  | ok ls =>
    obtain ⟨user, project, huser, hproject, hsays⟩ := says_layers hl
    have hs := (Settled.builtIn directory).combine hsays
    simp only [hl, bind, Except.bind, pure, Except.pure, Except.ok.injEq] at h
    subst h
    have hperm := hs.keys_perm
    refine ⟨user, project, huser, hproject, hs.value, hperm, ?_, ?_⟩
    · have hlen := hperm.length_eq
      rw [List.length_map, List.length_map] at hlen
      exact hlen.trans (by decide)
    · exact hs.overridden_perm (builtIn_not_mem_sources user project)

/-- A directory below a project, whose user's file and project's file both give
paths, and both together with the other sources some of the rest. -/
def sampleTree : FileTree where
  nodes := [
    (["h", ".config", "swagger-autogen", "config.toml"], .file (some
      "[alias]\ndepth = 5\n[alias.map]\n\"~\" = \"app\"\n[paths]\nDTO = \"b.ts\"\ndto = \"a.ts\"\n")),
    (["w", "swagger-autogen.toml"], .file (some
      "[source]\nuri = \"p.yaml\"\n[alias.map]\n[paths]\nquery = \"q.ts\"\n"))]
  current := []

def sampleEnvironment : Environment := .ofList
  [("HOME", "/h"), ("SWAGGER_AUTOGEN_FORMAT", "xml"), ("SWAGGER_AUTOGEN_ALIAS_DEPTH", "3")]

def sampleOverrides : Overrides := { Overrides.none with createSchema := some false }

/-- The origins of what is not built in then. -/
def sampleOrigins : List (String × Origin) :=
  [("alias.depth", .environment "SWAGGER_AUTOGEN_ALIAS_DEPTH"),
    ("alias.map", .userFile "/h/.config/swagger-autogen/config.toml"),
    ("generate.create_schema", .commandLine "--no-schema"),
    ("paths.dto", .userFile "/h/.config/swagger-autogen/config.toml"),
    ("paths.queries", .projectFile "/w/swagger-autogen.toml"),
    ("source.uri", .projectFile "/w/swagger-autogen.toml")]

/-- The environment has a depth but no format; of `DTO` and `dto` the last one counts, and the
project's map without aliases does not. -/
theorem resolve_settled_sample :
    ∃ r, resolve sampleTree sampleEnvironment "/w/app" sampleOverrides = .ok r ∧
      (∃ user project,
        FileAt sampleTree ((userPath? sampleEnvironment).filter sampleTree.contains) user ∧
        FileAt sampleTree ((projectPaths "/w/app").find? sampleTree.contains) project ∧
        SettledFrom "/w/app" (sources user project sampleEnvironment sampleOverrides) r) ∧
      r.settings.uri = some "p.yaml" ∧ r.settings.createSchema = false ∧
      r.settings.format = .json ∧ r.settings.aliasDepth = 3 ∧
      r.settings.aliases.roots.entries = [("~", "app")] ∧
      r.settings.paths = [(.dto, "a.ts"), (.queries, "q.ts")] ∧
      r.provenance.overridden = sampleOrigins := by
  have hvalues : (resolve sampleTree sampleEnvironment "/w/app" sampleOverrides).toOption.any
      (fun r => r.settings.uri = some "p.yaml" ∧ r.settings.createSchema = false ∧
        r.settings.format = .json ∧ r.settings.aliasDepth = 3 ∧
        r.settings.aliases.roots.entries = [("~", "app")] ∧
        r.settings.paths = [(.dto, "a.ts"), (.queries, "q.ts")] ∧
        r.provenance.overridden = sampleOrigins) = true := by
    decide +kernel
  cases hr : resolve sampleTree sampleEnvironment "/w/app" sampleOverrides with
  | error e =>
    rw [hr] at hvalues
    cases hvalues
  | ok r =>
    rw [hr] at hvalues
    exact ⟨r, rfl, resolve_settled hr, of_decide_eq_true hvalues⟩

end Resolution

end ClientRoutes
