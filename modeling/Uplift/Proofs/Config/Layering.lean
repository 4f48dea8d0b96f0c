-- The layers of the configuration. Each setting has the value of the highest
-- layer that makes it, whatever the other layers hold, and only the outcome is
-- checked.
import Uplift.Config.Layers

namespace Uplift

/-- The first value among layers, given from the highest on. -/
def highest {α : Type} (layers : List (Option α)) : Option α := layers.findSome? id

theorem highest_append {α : Type} (upper lower : List (Option α)) :
    highest (upper ++ lower) = (highest upper).or (highest lower) :=
  List.findSome?_append

/-- A list makes a setting only if it has items. -/
def ifAny (items : List String) : Option (List String) :=
  if items.isEmpty then none else some items

theorem getD_ifAny (items : List String) : (ifAny items).getD [] = items := by
  cases items <;> rfl

theorem ifAny_overList (lower upper : List String) :
    ifAny (Config.overList lower upper) = (ifAny upper).or (ifAny lower) := by
  cases upper <;> rfl

namespace Config

/-! ## One layer over another -/

/-- A part of the configuration for which the upper of two layers counts if it sets the part. -/
def IsSetting {α : Type} (part : Config → Option α) : Prop :=
  ∀ lower upper, part (overlay lower upper) = (part upper).or (part lower)

/-- Of layers laid over each other, the highest that sets a part decides it. -/
theorem IsSetting.foldl_overlay {α : Type} {part : Config → Option α} (h : IsSetting part)
    (layers : List Config) (base : Config) :
    part (layers.foldl overlay base) = (highest (layers.reverse.map part)).or (part base) := by
  induction layers generalizing base with
  | nil => rfl
  | cons c rest ih =>
    rw [List.foldl_cons, ih, h, List.reverse_cons, List.map_append, highest_append,
      Option.or_assoc]
    cases hc : part c <;> simp [highest, hc]

/-! ## The outcome of all layers -/

/-- What the layers come to, setting by setting and from the highest layer on. -/
def resolved (user project : Config) (env : Environment) (cli : Overrides) : Config where
  scan := {
    maxFileSize := highest [cli.maxFileSize, env.maxFileSize.bind readCount?,
      project.scan.maxFileSize, user.scan.maxFileSize]
    extraIgnore :=
      (highest [ifAny project.scan.extraIgnore, ifAny user.scan.extraIgnore]).getD []
    extensions :=
      (highest [ifAny project.scan.extensions, ifAny user.scan.extensions]).getD []
    respectGitignore := highest [project.scan.respectGitignore, user.scan.respectGitignore] }
  fix := {
    dryRun := highest [cli.dryRun, env.dryRun.bind readFlag?, project.fix.dryRun,
      user.fix.dryRun]
    minConfidence := highest [env.minConfidence, project.fix.minConfidence,
      user.fix.minConfidence] }
  catalogPath := highest [cli.catalogPath, env.catalogPath, project.catalogPath,
    user.catalogPath]

/-- A configuration is the same as another if all its settings are. -/
theorem eq_of_settings {c d : Config} (maxFileSize : c.scan.maxFileSize = d.scan.maxFileSize)
    (extraIgnore : c.scan.extraIgnore = d.scan.extraIgnore)
    (extensions : c.scan.extensions = d.scan.extensions)
    (respectGitignore : c.scan.respectGitignore = d.scan.respectGitignore)
    (dryRun : c.fix.dryRun = d.fix.dryRun)
    (minConfidence : c.fix.minConfidence = d.fix.minConfidence)
    (catalogPath : c.catalogPath = d.catalogPath) : c = d := by
  obtain ⟨⟨_, _, _, _⟩, ⟨_, _⟩, _⟩ := c
  obtain ⟨⟨_, _, _, _⟩, ⟨_, _⟩, _⟩ := d
  simp_all

theorem foldl_overlay_eq_resolved (user project : Config) (env : Environment)
    (cli : Overrides) :
    [user, project, env.settings, cli.settings].foldl overlay {} =
      resolved user project env cli := by
  have hlayers : ∀ {α : Type} (part : Config → Option α), IsSetting part → part {} = none →
      part ([user, project, env.settings, cli.settings].foldl overlay {}) =
        highest [part cli.settings, part env.settings, part project, part user] := by
    intro α part h hnone
    rw [h.foldl_overlay, hnone, Option.or_none]
    rfl
  apply eq_of_settings
  · exact hlayers (·.scan.maxFileSize) (fun _ _ => Option.orElse_eq_or) rfl
  · rw [← getD_ifAny (Config.scan _).extraIgnore,
      hlayers (ifAny ·.scan.extraIgnore) (fun _ _ => ifAny_overList _ _) rfl]
    rfl
  · rw [← getD_ifAny (Config.scan _).extensions,
      hlayers (ifAny ·.scan.extensions) (fun _ _ => ifAny_overList _ _) rfl]
    rfl
  · exact hlayers (·.scan.respectGitignore) (fun _ _ => Option.orElse_eq_or) rfl
  · exact hlayers (·.fix.dryRun) (fun _ _ => Option.orElse_eq_or) rfl
  · exact hlayers (·.fix.minConfidence) (fun _ _ => Option.orElse_eq_or) rfl
  · exact hlayers (·.catalogPath) (fun _ _ => Option.orElse_eq_or) rfl

end Config

/-! ## Files as layers -/

/-- What comes of looking at a configuration file. -/
inductive Reading where
  | settings (c : Config)
  | malformed (path : String)
  | unreadable (path : String)

namespace ConfigFile

/-- A file that is missing has no settings. -/
def reading : ConfigFile → Reading
  | absent => .settings {}
  | unreadable path => .unreadable path
  | present path text =>
    match Config.decode path text with
    | .ok c => .settings c
    | .error _ => .malformed path

end ConfigFile

/-- The settings of a file that need not be readable. -/
def Reading.known : Reading → Config
  | settings c => c
  | _ => {}

namespace ConfigFile

theorem settings_eq (file : ConfigFile) :
    file.settings =
      match file.reading with
      | .settings c => .ok c
      | .malformed path => .error (.malformed path "not a configuration in TOML")
      | .unreadable path => .error (.fileNotFound path) := by
  cases file with
  | absent => rfl
  | unreadable path => rfl
  | present path text =>
    simp only [settings, reading, Config.decode]
    cases (Toml.parse? text).bind Config.ofEntries? <;> rfl

/-- Of a file that need not be readable, only bad contents are an error. -/
theorem settingsIfReadable_eq (file : ConfigFile) :
    file.settingsIfReadable =
      match file.reading with
      | .malformed path => .error (.malformed path "not a configuration in TOML")
      | r => .ok r.known := by
  cases file with
  | absent => rfl
  | unreadable path => rfl
  | present path text =>
    change (present path text).settings = _
    rw [settings_eq]
    simp only [reading]
    cases Config.decode path text <;> rfl

end ConfigFile

/-! ## The law -/

theorem Config.checked_eq_ok {c r : Config} :
    c.checked = .ok r ↔ c.validate = .ok () ∧ r = c := by
  unfold checked
  cases c.validate <;> simp [bind, Except.bind, pure, Except.pure, eq_comm]

theorem Config.checked_eq_error {c : Config} {e : ConfigError} :
    c.checked = .error e ↔ c.validate = .error e := by
  unfold checked
  cases c.validate <;> simp [bind, Except.bind, pure, Except.pure]

/-- The user's file is looked at first, and only bad contents of it are an error; then the
file of the project, which must also be readable. If both pass, every setting comes from the
highest layer that makes it, and the outcome is refused exactly when its own check fails. -/
theorem every_setting_comes_from_the_highest_layer_that_makes_it
    (user project : ConfigFile) (env : Environment) (cli : Overrides) :
    (∀ path, user.reading = .malformed path →
      ∃ reason, Config.load user project env cli = .error (.malformed path reason)) ∧
    ((∀ path, user.reading ≠ .malformed path) →
      (∀ path, project.reading = .unreadable path →
        Config.load user project env cli = .error (.fileNotFound path)) ∧
      (∀ path, project.reading = .malformed path →
        ∃ reason, Config.load user project env cli = .error (.malformed path reason)) ∧
      ∀ settings, project.reading = .settings settings →
        let c := Config.resolved user.reading.known settings env cli
        (∀ r, Config.load user project env cli = .ok r ↔ c.validate = .ok () ∧ r = c) ∧
          ∀ e, Config.load user project env cli = .error e ↔ c.validate = .error e) := by
  unfold Config.load
  rw [ConfigFile.settingsIfReadable_eq]
  refine ⟨?_, fun hu => ?_⟩
  · intro path h
    exact ⟨_, by rw [h]; rfl⟩
  have hknown : (match user.reading with
      | .malformed path =>
        Except.error (ConfigError.malformed path "not a configuration in TOML")
      | r => .ok r.known) = .ok user.reading.known := by
    cases hr : user.reading with
    | malformed path => exact absurd hr (hu path)
    | _ => rfl
  rw [hknown, ConfigFile.settings_eq]
  refine ⟨?_, ?_, ?_⟩
  · intro path h
    rw [h]
    rfl
  · intro path h
    exact ⟨_, by rw [h]; rfl⟩
  · intro settings h c
    rw [h]
    simp only [bind, Except.bind, Config.foldl_overlay_eq_resolved]
    exact ⟨fun r => Config.checked_eq_ok, fun e => Config.checked_eq_error⟩

/-- A user's file with a limit that is not allowed counts only if nothing overrides it; a
broken one counts before the file of the project is looked at. -/
theorem an_overridden_limit_is_not_checked :
    let user := ConfigFile.present "u.toml" "[scan]\nmax_file_size = 0\n".toList
    let broken := ConfigFile.present "u.toml" "[scan".toList
    let project := ConfigFile.present "p.toml" "[scan]\nextensions = ['jsx']\n".toList
    let env : Environment := { maxFileSize := some "many", dryRun := some "true" }
    let cli : Overrides := { maxFileSize := some 5 }
    (∀ path, user.reading ≠ .malformed path) ∧
      (∃ settings, project.reading = .settings settings) ∧
      Config.load user project env cli =
        .ok { scan := { maxFileSize := some 5, extensions := ["jsx"] }
              fix := { dryRun := some true } } ∧
      Config.load user project env {} =
        .error (.invalid "scan.max_file_size" "must be greater than 0") ∧
      Config.load user (.unreadable "p.toml") env cli = .error (.fileNotFound "p.toml") ∧
      ∃ reason, Config.load broken (.unreadable "p.toml") env cli =
        .error (.malformed "u.toml" reason) := by
  intro user broken project env cli
  have huser : user.reading = .settings { scan := { maxFileSize := some 0 } } := rfl
  have hproject : project.reading = .settings { scan := { extensions := ["jsx"] } } := rfl
  have hfine : ∀ path, user.reading ≠ .malformed path := by simp [huser]
  have hlaw := every_setting_comes_from_the_highest_layer_that_makes_it
  refine ⟨hfine, ⟨_, hproject⟩, ?_, ?_, ?_, ?_⟩
  · apply ((((hlaw user project env cli).2 hfine).2.2 _ hproject).1 _).2
    rw [huser]
    exact ⟨rfl, rfl⟩
  · apply ((((hlaw user project env {}).2 hfine).2.2 _ hproject).2 _).2
    rw [huser]
    rfl
  · exact ((hlaw user (.unreadable "p.toml") env cli).2 hfine).1 "p.toml" rfl
  · exact (hlaw broken (.unreadable "p.toml") env cli).1 "u.toml" rfl

end Uplift
