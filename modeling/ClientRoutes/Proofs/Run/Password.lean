import ClientRoutes.Run
import Mathlib.Data.List.Forall2

/-
  What a run shows of a password: whether there is one, and nothing else.

  Two runs are compared whose settings files agree in all but the text of the password.
  Everything that a run reads from its settings is kept if that text is blotted out
  (`masked`), and blotting out commutes with every step from a file to the settings of a
  directory. So both runs print the same, and they fail in the same way.

  What is proved:
    1. `FileTree.Alike.read?_alike` — in trees that are alike the same paths lead
       somewhere, and the texts there are the same or alike.
    2. `Layer.map_masked_ofFile`, `Layer.masked_laidOver` — a layer and what it is laid
       over, with the password blotted out.
    3. `Resolution.map_masked_resolve` — the settings of a directory in both runs.
    4. `Resolution.overview_masked`, `Report.build_masked` — what is printed does not
       depend on the text.
    5. `command_alike` — two runs of any command.
-/

namespace ClientRoutes

/-! ## Blotting out -/

/-- A password with its text blotted out. -/
def maskText (password : Option String) : Option String := password.map fun _ => ""

theorem isSome_maskText (password : Option String) :
    (maskText password).isSome = password.isSome :=
  Option.isSome_map

theorem maskText_orElse (new old : Option String) :
    maskText (new <|> old) = (maskText new <|> maskText old) := by
  cases new <;> rfl

theorem maskText_eq_iff {password other : Option String} :
    maskText password = maskText other ↔ password.isSome = other.isSome := by
  cases password <;> cases other <;> simp [maskText]

/-- Settings of a file with the password blotted out. -/
def FileSettings.masked (f : FileSettings) : FileSettings :=
  { f with password := maskText f.password }

/-- A layer with the password blotted out. -/
def Layer.masked (l : Layer) : Layer := { l with password := maskText l.password }

/-- Settings with the password blotted out. -/
def Settings.masked (s : Settings) : Settings := { s with password := maskText s.password }

/-- The settings of a directory with the password blotted out. -/
def Resolution.masked (r : Resolution) : Resolution := { r with settings := r.settings.masked }

/-- Results that agree under a map are the same error, or values that agree. -/
theorem eq_of_map_eq {ε α β : Type} {k : α → β} {x y : Except ε α} (h : x.map k = y.map k) :
    (∃ e, x = .error e ∧ y = .error e) ∨ ∃ a b, x = .ok a ∧ y = .ok b ∧ k a = k b := by
  cases x with
  | error e =>
    cases y with
    | error e' => exact .inl ⟨e, rfl, congrArg Except.error (Except.error.inj h).symm⟩
    | ok b => cases h
  | ok a =>
    cases y with
    | error e => cases h
    | ok b => exact .inr ⟨a, b, rfl, rfl, Except.ok.inj h⟩

/-! ## Files that are alike -/

/-- Settings of two files that agree in all but the text of the password: both have one,
or neither. -/
structure FileSettings.Alike (f g : FileSettings) : Prop where
  rest : g = { f with password := g.password }
  presence : f.password.isSome = g.password.isSome

theorem FileSettings.Alike.masked_eq {f g : FileSettings} (h : f.Alike g) :
    f.masked = g.masked := by
  rw [h.rest, masked, masked, maskText_eq_iff.2 h.presence]

/-- Two files that are the same, or hold settings that are alike. -/
inductive FileTree.Node.Alike : Node → Node → Prop
  | refl (node : Node) : Alike node node
  | settings {text other : String} {f g : FileSettings} (hf : FileSettings.ofToml? text = some f)
      (hg : FileSettings.ofToml? other = some g) (h : f.Alike g) :
      Alike (.file (some text)) (.file (some other))

/-- Two trees that have the same places, with files that are alike. -/
structure FileTree.Alike (t u : FileTree) : Prop where
  current : t.current = u.current
  nodes : List.Forall₂ (fun a b => a.1 = b.1 ∧ a.2.Alike b.2) t.nodes u.nodes

namespace FileTree

variable {t u : FileTree}

/-- Nothing is found twice, or two nodes that are alike. -/
def FoundAlike (found other : Option Node) : Prop :=
  (found = none ∧ other = none) ∨ ∃ n m, found = some n ∧ other = some m ∧ n.Alike m

theorem lookup_alike {ns ms : List (List String × Node)}
    (h : List.Forall₂ (fun a b => a.1 = b.1 ∧ a.2.Alike b.2) ns ms) (place : List String) :
    FoundAlike (ns.lookup place) (ms.lookup place) := by
  induction h with
  | nil => exact .inl ⟨rfl, rfl⟩
  | @cons a b ns ms hab _ ih =>
    obtain ⟨here, node⟩ := a
    obtain ⟨there, other⟩ := b
    obtain ⟨rfl, hnode⟩ := hab
    rw [List.lookup_cons, List.lookup_cons]
    cases place == here with
    | true => exact .inr ⟨node, other, rfl, rfl, hnode⟩
    | false => exact ih

theorem any_place_eq {ns ms : List (List String × Node)}
    (h : List.Forall₂ (fun a b => a.1 = b.1 ∧ a.2.Alike b.2) ns ms) (p : List String → Bool) :
    ns.any (fun e => p e.1) = ms.any fun e => p e.1 := by
  induction h with
  | nil => rfl
  | cons hab _ ih => rw [List.any_cons, List.any_cons, hab.1, ih]

namespace Alike

theorem node?_alike (h : t.Alike u) (place : List String) :
    FoundAlike (t.node? place) (u.node? place) := by
  unfold node?
  rw [any_place_eq h.nodes (place.isPrefixOf ·)]
  obtain ⟨ht, hu⟩ | ⟨n, m, ht, hu, hnode⟩ := lookup_alike h.nodes place
  · rw [ht, hu]
    -- What lies above a place is a directory in both trees, or in neither.
    dsimp only
    split
    · exact .inr ⟨.directory, .directory, rfl, rfl, .refl _⟩
    · exact .inl ⟨rfl, rfl⟩
  · rw [ht, hu]
    exact .inr ⟨n, m, rfl, rfl, hnode⟩

theorem isDirectory_eq (h : t.Alike u) (place : List String) :
    t.isDirectory place = u.isDirectory place := by
  unfold isDirectory
  obtain ⟨ht, hu⟩ | ⟨n, m, ht, hu, hnode⟩ := h.node?_alike place
  · rw [ht, hu]
  · rw [ht, hu]
    cases hnode <;> rfl

theorem isSome_node?_eq (h : t.Alike u) (place : List String) :
    (t.node? place).isSome = (u.node? place).isSome := by
  obtain ⟨ht, hu⟩ | ⟨n, m, ht, hu, -⟩ := h.node?_alike place
  · rw [ht, hu]
  · rw [ht, hu]
    rfl

theorem walk?_eq (h : t.Alike u) (place parts : List String) :
    t.walk? place parts = u.walk? place parts := by
  induction parts generalizing place with
  | nil => rfl
  | cons part parts ih =>
    simp only [walk?, h.isDirectory_eq, h.isSome_node?_eq, ih]

theorem place?_eq (h : t.Alike u) (path : String) : t.place? path = u.place? path := by
  simp only [place?, start, h.current, h.walk?_eq]

theorem contains_eq (h : t.Alike u) (path : String) : t.contains path = u.contains path := by
  simp only [contains, lookUp?, h.place?_eq]

theorem canonical?_eq (h : t.Alike u) (path : String) : t.canonical? path = u.canonical? path := by
  simp only [canonical?, h.place?_eq]

/-- The same is read at a path of both trees, or the texts hold settings that are alike. -/
theorem read?_alike (h : t.Alike u) (path : String) :
    t.read? path = u.read? path ∨
      ∃ text other f g, t.read? path = some text ∧ u.read? path = some other ∧
        FileSettings.ofToml? text = some f ∧ FileSettings.ofToml? other = some g ∧ f.Alike g := by
  have hlook : t.lookUp? path = u.lookUp? path := by
    simp only [lookUp?, h.place?_eq]
  unfold read?
  rw [hlook]
  cases u.lookUp? path with
  | none => exact .inl rfl
  | some place =>
    simp only [Option.bind_eq_bind, Option.bind_some]
    obtain ⟨ht, hu⟩ | ⟨n, m, ht, hu, hnode⟩ := h.node?_alike place
    · rw [ht, hu]
      exact .inl rfl
    · rw [ht, hu]
      cases hnode with
      | refl => exact .inl rfl
      | settings hf hg hfg => exact .inr ⟨_, _, _, _, rfl, rfl, hf, hg, hfg⟩

end Alike

end FileTree

/-! ## Layers -/

namespace Layer

theorem map_masked_ofFile (origin : Origin) (f : FileSettings) :
    (ofFile origin f).map masked = ofFile origin f.masked := by
  unfold ofFile
  have hformat : f.masked.format = f.format := rfl
  have hpaths : f.masked.paths = f.paths := rfl
  rw [hformat, hpaths]
  cases fileFormat origin f.format with
  | error e => rfl
  | ok format => cases filePaths origin f.paths.entries <;> rfl

theorem masked_laidOver (l : Layer) (s : Settings) :
    (l.laidOver s).masked = l.masked.laidOver s.masked := by
  -- All other values are the same already.
  have hpassword := maskText_orElse l.password s.password
  exact congrArg (fun p => { l.masked.laidOver s.masked with password := p }) hpassword

/-- A layer speaks of the same settings, so the origins are the same. -/
theorem originsOver_masked (l : Layer) (p : Provenance) :
    l.masked.originsOver p = l.originsOver p := by
  have hdefines : l.masked.defines = l.defines := by
    funext x
    cases x with
    | password => exact isSome_maskText l.password
    | _ => rfl
  rw [originsOver, originsOver, hdefines]
  rfl

end Layer

namespace Resolution

theorem masked_combine (layers : List Layer) (s : Settings) :
    (combine layers s).masked = combine (layers.map Layer.masked) s.masked := by
  induction layers generalizing s with
  | nil => rfl
  | cons l layers ih =>
    have hstep := ih (l.laidOver s)
    rw [Layer.masked_laidOver] at hstep
    exact hstep

theorem combineOrigins_masked (layers : List Layer) (p : Provenance) :
    combineOrigins (layers.map Layer.masked) p = combineOrigins layers p := by
  induction layers generalizing p with
  | nil => rfl
  | cons l layers ih =>
    have hlayer := congrArg (combineOrigins (layers.map Layer.masked)) (l.originsOver_masked p)
    exact hlayer.trans (ih (l.originsOver p))

/-! ## The settings of a directory -/

variable {t u : FileTree}

theorem foundFiles_alike (h : t.Alike u) (env : Environment) (directory : String) :
    foundFiles t env directory = foundFiles u env directory := by
  have hcontains : t.contains = u.contains := funext h.contains_eq
  rw [foundFiles, foundFiles, hcontains]

theorem fileLayer_alike (h : t.Alike u) (file : Scope × String) :
    (fileLayer t file).map Layer.masked = (fileLayer u file).map Layer.masked := by
  unfold fileLayer
  obtain hsame | ⟨text, other, f, g, ht, hu, hf, hg, hfg⟩ := h.read?_alike file.2
  · rw [hsame]
  · have hpresent : f.modernize.masked = g.modernize.masked :=
      congrArg FileSettings.modernize hfg.masked_eq
    simp only [ht, hu, hf, hg, Layer.map_masked_ofFile, hpresent]

theorem map_mapM_congr {ε α β γ : Type} {f g : α → Except ε β} {k : β → γ}
    (h : ∀ a, (f a).map k = (g a).map k) (as : List α) :
    (as.mapM f).map (List.map k) = (as.mapM g).map (List.map k) := by
  induction as with
  | nil => rfl
  | cons a as ih =>
    rw [List.mapM_cons, List.mapM_cons]
    obtain ⟨e, hf, hg⟩ | ⟨b, c, hf, hg, hbc⟩ := eq_of_map_eq (h a)
    · rw [hf, hg]
      rfl
    · rw [hf, hg]
      obtain ⟨e, hf, hg⟩ | ⟨bs, cs, hf, hg, hbcs⟩ := eq_of_map_eq ih
      · rw [hf, hg]
        rfl
      · rw [hf, hg]
        exact congrArg Except.ok (congrArg₂ List.cons hbc hbcs)

theorem map_masked_layers (h : t.Alike u) (env : Environment) (directory : String)
    (o : Overrides) :
    (layers t env directory o).map (List.map Layer.masked) =
      (layers u env directory o).map (List.map Layer.masked) := by
  unfold layers
  rw [foundFiles_alike h]
  obtain ⟨e, ht, hu⟩ | ⟨ls, ms, ht, hu, hls⟩ := eq_of_map_eq
    (map_mapM_congr (fileLayer_alike h) (foundFiles u env directory))
  · rw [ht, hu]
  · rw [ht, hu]
    simp only [bind, Except.bind, pure, Except.pure, Except.map, List.map_append, hls]

/-- The settings of a directory are the same in both trees, with the password blotted out. -/
theorem map_masked_resolve (h : t.Alike u) (env : Environment) (directory : String)
    (o : Overrides) :
    (resolve t env directory o).map masked = (resolve u env directory o).map masked := by
  unfold resolve
  rw [foundFiles_alike h]
  obtain ⟨e, ht, hu⟩ | ⟨ls, ms, ht, hu, hls⟩ := eq_of_map_eq (map_masked_layers h env directory o)
  · rw [ht, hu]
  · rw [ht, hu]
    simp only [bind, Except.bind, pure, Except.pure, Except.map, masked, masked_combine]
    rw [hls, ← combineOrigins_masked ls, ← combineOrigins_masked ms, hls]

/-! ## What is printed -/

theorem valueText_masked (s : Settings) : valueText s.masked = valueText s := by
  funext x
  cases x with
  | password =>
    unfold valueText Settings.masked
    cases s.password <;> rfl
  | _ => rfl

theorem overview_masked (r : Resolution) : r.masked.overview = r.overview := by
  have hline : settingLine r.settings.masked = settingLine r.settings := by
    funext key origin
    rw [settingLine, settingLine, valueText_masked]
  have hnote : credentialsNote r.settings.masked = credentialsNote r.settings := by
    rw [credentialsNote, credentialsNote, Settings.masked, isSome_maskText]
  unfold overview
  rw [masked, hline, hnote]
  rfl

end Resolution

/-- What explains a kind of file, and what is derived from a document, are made without a
look at the password. -/
theorem Resolution.explain_masked (r : Resolution) (category : String) :
    r.masked.explain category = r.explain category := rfl

theorem Report.build_masked (tree : FileTree) (s : Settings) (module : Option String) :
    build tree s.masked module = build tree s module := rfl

/-! ## Runs -/

namespace Run

variable {t u : FileTree}

theorem directory_alike (h : t.Alike u) (path : Option String) :
    directory t path = directory u path := by
  simp only [directory, h.canonical?_eq]

/-- A run comes to the same settings with the password blotted out, or fails alike. -/
theorem resolve_alike (h : t.Alike u) (env : Environment) (directory : String) (o : Overrides) :
    (∃ e, resolve t env directory o = .error e ∧ resolve u env directory o = .error e) ∨
      ∃ r r', resolve t env directory o = .ok r ∧ resolve u env directory o = .ok r' ∧
        r.masked = r'.masked := by
  unfold resolve
  obtain ⟨e, ht, hu⟩ | ⟨r, r', ht, hu, hr⟩ :=
    eq_of_map_eq (Resolution.map_masked_resolve h env directory o)
  · rw [ht, hu]
    exact .inl ⟨_, rfl, rfl⟩
  · rw [ht, hu]
    exact .inr ⟨r, r', rfl, rfl, hr⟩

theorem config_alike (h : t.Alike u) (env : Environment) (path : Option String)
    {text : Resolution → String} (htext : ∀ r : Resolution, text r.masked = text r) :
    config t env path text = config u env path text := by
  unfold config
  rw [directory_alike h]
  cases directory u path with
  | error e => rfl
  | ok place =>
    simp only [bind, Except.bind]
    obtain ⟨e, ht, hu⟩ | ⟨r, r', ht, hu, hr⟩ := resolve_alike h env place .none
    · rw [ht, hu]
    · rw [ht, hu]
      simp only [← htext r, ← htext r', hr]

theorem build_alike {s s' : Settings} (hs : s.masked = s'.masked)
    (hdocument : ∀ path, Report.documentPath s = .ok path → t.read? path = u.read? path)
    (module : Option String) : Report.build t s module = Report.build u s' module := by
  rw [← Report.build_masked u s', ← hs, Report.build_masked]
  unfold Report.build
  cases hpath : Report.documentPath s with
  | error e => rfl
  | ok path =>
    simp only [bind, Except.bind]
    rw [Report.readDocument, hdocument path hpath, ← Report.readDocument]

theorem routes_alike (h : t.Alike u) (env : Environment) (elapsed : Nat) (a : RoutesArguments)
    (hdocument : ∀ path, documentPath? t env (.routes a) = some path →
      t.read? path = u.read? path) :
    routes t env elapsed a = routes u env elapsed a := by
  unfold routes
  simp only [documentPath?] at hdocument
  rw [directory_alike h] at hdocument ⊢
  cases hplace : directory u a.path with
  | error e => rfl
  | ok place =>
    simp only [hplace, bind, Except.bind] at hdocument ⊢
    obtain ⟨e, ht, hu⟩ | ⟨r, r', ht, hu, hr⟩ := resolve_alike h env place (overrides a)
    · rw [ht, hu]
    · have hsettings : r.settings.masked = r'.settings.masked := congrArg Resolution.settings hr
      have hformat : r.settings.format = r'.settings.format :=
        (congrArg Settings.format hsettings :)
      simp only [ht] at hdocument
      have hbuild := build_alike hsettings (fun path hpath => hdocument path (by rw [hpath]; rfl))
        a.module
      simp only [ht, hu, hbuild, hformat]

/-- Take two trees with the same files, but for settings files whose texts differ in the
password: every such file sets one in both trees, or in neither. Then the settings of a
directory agree in all but the text of the password, and they are there in both trees or in
neither. Whatever command is run, with the same environment and the same document, both
runs print the same text with the same warnings, or fail in the same way. -/
theorem command_alike (h : t.Alike u) (env : Environment) :
    (∀ directory o r, Resolution.resolve t env directory o = .ok r →
      ∃ r', Resolution.resolve u env directory o = .ok r' ∧
        r'.settings = { r.settings with password := r'.settings.password } ∧
        r.settings.password.isSome = r'.settings.password.isSome ∧
        r'.provenance = r.provenance ∧ r'.files = r.files) ∧
    ∀ (elapsed : Nat) (c : Command),
      (∀ path, documentPath? t env c = some path → t.read? path = u.read? path) →
        command t env elapsed c = command u env elapsed c := by
  constructor
  · intro directory o r hr
    obtain ⟨e, ht, -⟩ | ⟨s, r', ht, hu, hmasked⟩ :=
      eq_of_map_eq (Resolution.map_masked_resolve h env directory o)
    · rw [hr] at ht
      cases ht
    · obtain rfl := Except.ok.inj (hr.symm.trans ht)
      have hsettings : r.settings.masked = r'.settings.masked :=
        congrArg Resolution.settings hmasked
      refine ⟨r', hu, ?_, maskText_eq_iff.1 (congrArg Settings.password hsettings),
        (congrArg Resolution.provenance hmasked).symm, (congrArg Resolution.files hmasked).symm⟩
      exact congrArg (fun s => { s with password := r'.settings.password }) hsettings.symm
  · intro elapsed c hdocument
    cases c with
    | routes a => exact routes_alike h env elapsed a hdocument
    | configShow path => exact config_alike h env path Resolution.overview_masked
    | configExplain category path =>
      exact config_alike h env path fun r => r.explain_masked category

/-- The settings in a file that gives a password and perhaps a document. -/
def secretOnly (uri : Option String) (password : String) : FileSettings where
  uri := uri
  username := none
  password := some password
  createSchema := none
  projectTemplate := none
  format := none
  roots := .empty
  aliasDepth := none
  paths := .empty

/-- The user's file with a password. -/
def userText (password : String) : String := "[source]\npassword = \"" ++ password ++ "\"\n"

/-- The project's file, which gives another password and a document. -/
def projectText (password : String) : String :=
  "[source]\nuri = \"users.json\"\npassword = \"" ++ password ++ "\"\n"

/-- The two files with their passwords, and the document. -/
def guardedTree (user project : String) : FileTree where
  nodes := [
    (["h", ".config", "swagger-autogen", "config.toml"], .file (some (userText user))),
    (["w", "swagger-autogen.toml"], .file (some (projectText project))),
    (["w", "users.json"], .file (some
      "\x7b\"openapi\": \"3.0.0\", \"paths\": \x7b\"/users\": \x7b\"get\": \x7b\x7d\x7d\x7d\x7d"))]
  current := ["w"]

/-- Passwords that are of some use, and passwords that are of none. -/
def sesameTree : FileTree := guardedTree "hunter2" "sesame"

def blankTree : FileTree := guardedTree "********" ""

def guardedEnvironment : Environment := .ofList [("HOME", "/h")]

/-- A run of each command, with both formats of a report. -/
def guardedCommands : List Command :=
  [.configShow none, .configExplain "queries" none, .configExplain "nothing" none,
    .routes ⟨none, some .text, none, false, none, none⟩,
    .routes ⟨none, some .json, none, false, none, none⟩]

/-- The passwords in the settings are different ones, but all commands print the same. -/
theorem command_alike_guarded :
    (∃ r r', Resolution.resolve sesameTree guardedEnvironment "/w" .none = .ok r ∧
      Resolution.resolve blankTree guardedEnvironment "/w" .none = .ok r' ∧
      r.settings.password = some "sesame" ∧
      r'.settings = { r.settings with password := some "" }) ∧
    ∀ c ∈ guardedCommands,
      command sesameTree guardedEnvironment 8 c = command blankTree guardedEnvironment 8 c ∧
      (command sesameTree guardedEnvironment 8 c).toOption.isSome := by
  have halike (uri : Option String) (password other : String) :
      (secretOnly uri password).Alike (secretOnly uri other) := ⟨rfl, rfl⟩
  have huser : FileTree.Node.Alike (.file (some (userText "hunter2")))
      (.file (some (userText "********"))) :=
    .settings (by decide +kernel) (by decide +kernel) (halike none "hunter2" "********")
  have hproject : FileTree.Node.Alike (.file (some (projectText "sesame")))
      (.file (some (projectText ""))) :=
    .settings (by decide +kernel) (by decide +kernel) (halike (some "users.json") "sesame" "")
  have htrees : sesameTree.Alike blankTree :=
    ⟨rfl, .cons ⟨rfl, huser⟩ (.cons ⟨rfl, hproject⟩ (.cons ⟨rfl, .refl _⟩ .nil))⟩
  obtain ⟨hsettings, hcommands⟩ := command_alike htrees guardedEnvironment
  constructor
  · have hsesame : (Resolution.resolve sesameTree guardedEnvironment "/w" .none).toOption.map
        (·.settings.password) = some (some "sesame") := by decide +kernel
    have hblank : (Resolution.resolve blankTree guardedEnvironment "/w" .none).toOption.map
        (·.settings.password) = some (some "") := by decide +kernel
    cases hr : Resolution.resolve sesameTree guardedEnvironment "/w" .none with
    | error e =>
      rw [hr] at hsesame
      cases hsesame
    | ok r =>
      obtain ⟨r', hr', hrest, -⟩ := hsettings "/w" .none r hr
      rw [hr] at hsesame
      rw [hr'] at hblank
      have hpassword : r'.settings.password = some "" := Option.some.inj hblank
      rw [hpassword] at hrest
      exact ⟨r, r', rfl, hr', Option.some.inj hsesame, hrest⟩
  · have hpath : ∀ c ∈ guardedCommands, ∀ path ∈ documentPath? sesameTree guardedEnvironment c,
        path = "/w/users.json" := by decide +kernel
    have hread : sesameTree.read? "/w/users.json" = blankTree.read? "/w/users.json" := by
      decide +kernel
    have hok : ∀ c ∈ guardedCommands,
        (command sesameTree guardedEnvironment 8 c).toOption.isSome := by decide +kernel
    intro c hc
    refine ⟨hcommands 8 c fun path hdocument => ?_, hok c hc⟩
    rw [hpath c hc path hdocument]
    exact hread

end Run

end ClientRoutes
