import Classpath.Program

/-!
# The settings of a run

The settings file of a run is the one asked for, else the one that the environment names,
else that of the user if there is one.  Without a file the defaults hold.  A file must be
readable, hold text, and spell settings in the eyes of the reader that the run is given.
Main statements: loading comes to the settings in use, or fails for the reason that the
selected file gives.
-/

namespace Classpath

variable {readers : Readers} {surroundings : Surroundings} {asked : Option String}

/-! ## Which file -/

/-- The settings file of a run, if it has one. -/
inductive SelectsSettings (surroundings : Surroundings) (asked : Option String) :
    Option String → Prop
  | request {path : String} (hasked : asked = some path) :
      SelectsSettings surroundings asked (some path)
  | environment {path : String} (hasked : asked = none)
      (hvariable : surroundings.settingsVariable = some path) (hpath : path ≠ "") :
      SelectsSettings surroundings asked (some path)
  | user {directory : String} {node : Node} (hasked : asked = none)
      (hvariable : ∀ path, surroundings.settingsVariable = some path → path = "")
      (hdirectory : surroundings.userDirectory = some directory)
      (hthere : surroundings.tree.stat (directory ++ "/class-closure/config.json") = .ok node) :
      SelectsSettings surroundings asked (some (directory ++ "/class-closure/config.json"))
  | defaults (hasked : asked = none)
      (hvariable : ∀ path, surroundings.settingsVariable = some path → path = "")
      (huser : ∀ directory, surroundings.userDirectory = some directory → ∃ error,
        surroundings.tree.stat (directory ++ "/class-closure/config.json") = .error error) :
      SelectsSettings surroundings asked none

/-- Without a request and a variable that is set, the file of the user counts. -/
theorem settingsPath?_none
    (hvariable : ∀ path, surroundings.settingsVariable = some path → path = "") :
    settingsPath? surroundings none =
      (surroundings.userDirectory.map (· ++ "/class-closure/config.json")).filter
        surroundings.tree.hasPath := by
  have hunset : surroundings.settingsVariable.filter (· != "") = none := by
    rw [Option.filter_eq_none_iff]
    intro path hpath
    simp [hvariable path hpath]
  rw [settingsPath?, hunset]
  rfl

theorem selectsSettings_settingsPath? (surroundings : Surroundings) (asked : Option String) :
    SelectsSettings surroundings asked (settingsPath? surroundings asked) := by
  cases asked with
  | some path => exact .request rfl
  | none =>
      by_cases hvariable : ∀ path, surroundings.settingsVariable = some path → path = ""
      · rw [settingsPath?_none hvariable]
        cases hdirectory : surroundings.userDirectory with
        | none => exact .defaults rfl hvariable (by simp [hdirectory])
        | some directory =>
            cases hthere : surroundings.tree.stat (directory ++ "/class-closure/config.json") with
            | ok node =>
                simp only [Option.map_some, FileTree.hasPath, hthere, Except.isOk, Option.filter]
                exact .user rfl hvariable hdirectory hthere
            | error error =>
                simp only [Option.map_some, FileTree.hasPath, hthere, Except.isOk, Option.filter]
                exact .defaults rfl hvariable (by simp [hdirectory, hthere])
      · simp only [Classical.not_forall, exists_prop] at hvariable
        obtain ⟨path, hpath, hne⟩ := hvariable
        have hselected : settingsPath? surroundings none = some path := by
          simp [settingsPath?, hpath, Option.filter, hne]
        rw [hselected]
        exact .environment rfl hpath hne

theorem SelectsSettings.settingsPath?_eq {selected : Option String}
    (h : SelectsSettings surroundings asked selected) :
    settingsPath? surroundings asked = selected := by
  cases h with
  | request hasked => simp [settingsPath?, hasked]
  | environment hasked hvariable hpath =>
      simp [settingsPath?, hasked, hvariable, Option.filter, hpath]
  | user hasked hvariable hdirectory hthere =>
      rw [hasked, settingsPath?_none hvariable]
      simp [hdirectory, FileTree.hasPath, hthere, Except.isOk, Except.toBool, Option.filter]
  | defaults hasked hvariable huser =>
      rw [hasked, settingsPath?_none hvariable, Option.filter_eq_none_iff]
      intro path hpath
      obtain ⟨directory, hdirectory, rfl⟩ := Option.map_eq_some_iff.1 hpath
      obtain ⟨error, herror⟩ := huser directory hdirectory
      simp [FileTree.hasPath, herror, Except.isOk, Except.toBool]

/-! ## What it holds -/

/-- The settings of the selected file, or the defaults if there is none. -/
inductive SettingsInUse (readers : Readers) (surroundings : Surroundings)
    (asked : Option String) : Settings → Prop
  | defaults (hselected : SelectsSettings surroundings asked none) :
      SettingsInUse readers surroundings asked {}
  | file {path text : String} {settings : Settings}
      (hselected : SelectsSettings surroundings asked (some path))
      (hread : surroundings.tree.read path = .ok text.toUTF8)
      (hsettings : readers.readSettings text = .ok settings) :
      SettingsInUse readers surroundings asked settings

/-- Why the selected file gives no settings: it cannot be read, is no text, or is a text that
spells none. -/
inductive SettingsFail (readers : Readers) (surroundings : Surroundings)
    (asked : Option String) : SettingsError → Prop
  | unreadable {path : String} {cause : FileError}
      (hselected : SelectsSettings surroundings asked (some path))
      (hread : surroundings.tree.read path = .error cause) :
      SettingsFail readers surroundings asked (.unreadable path cause)
  | noText {path : String} {bytes : ByteArray}
      (hselected : SelectsSettings surroundings asked (some path))
      (hread : surroundings.tree.read path = .ok bytes)
      (hbytes : ∀ text, String.toUTF8 text ≠ bytes) :
      SettingsFail readers surroundings asked (.unreadable path .notText)
  | invalid {path text cause : String}
      (hselected : SelectsSettings surroundings asked (some path))
      (hread : surroundings.tree.read path = .ok text.toUTF8)
      (hsettings : readers.readSettings text = .error cause) :
      SettingsFail readers surroundings asked (.invalid path cause)

theorem fromUTF8?_eq_some_iff {bytes : ByteArray} {text : String} :
    String.fromUTF8? bytes = some text ↔ text.toUTF8 = bytes := by
  unfold String.fromUTF8?
  constructor
  · intro h
    split at h
    · rw [← Option.some.inj h]
      rfl
    · cases h
  · rintro rfl
    exact dif_pos text.isValidUTF8

theorem readText_of_read {tree : FileTree} {path text : String}
    (h : tree.read path = .ok text.toUTF8) : tree.readText path = .ok text := by
  have htext : String.fromUTF8? text.toByteArray = some text := fromUTF8?_eq_some_iff.2 rfl
  simp [FileTree.readText, h, Bind.bind, Except.bind, htext, Pure.pure, Except.pure]

theorem readText_of_no_text {tree : FileTree} {path : String} {bytes : ByteArray}
    (h : tree.read path = .ok bytes) (hbytes : ∀ text, String.toUTF8 text ≠ bytes) :
    tree.readText path = .error .notText := by
  have hnone : String.fromUTF8? bytes = none :=
    Option.eq_none_iff_forall_ne_some.2 fun text htext =>
      hbytes text (fromUTF8?_eq_some_iff.1 htext)
  simp [FileTree.readText, h, Bind.bind, Except.bind, hnone, throw, throwThe, MonadExceptOf.throw]

theorem readText_of_error {tree : FileTree} {path : String} {cause : FileError}
    (h : tree.read path = .error cause) : tree.readText path = .error cause := by
  simp [FileTree.readText, h, Bind.bind, Except.bind]

theorem SettingsInUse.loadSettings_eq {settings : Settings}
    (h : SettingsInUse readers surroundings asked settings) :
    (loadSettings readers surroundings asked).1 = .ok settings := by
  cases h with
  | defaults hselected => simp [loadSettings, hselected.settingsPath?_eq]
  | file hselected hread hsettings =>
      simp [loadSettings, hselected.settingsPath?_eq, Settings.load, readText_of_read hread,
        hsettings]

theorem SettingsFail.loadSettings_eq {error : SettingsError}
    (h : SettingsFail readers surroundings asked error) :
    (loadSettings readers surroundings asked).1 = .error error := by
  cases h with
  | unreadable hselected hread =>
      simp [loadSettings, hselected.settingsPath?_eq, Settings.load, readText_of_error hread]
  | noText hselected hread hbytes =>
      simp [loadSettings, hselected.settingsPath?_eq, Settings.load,
        readText_of_no_text hread hbytes]
  | invalid hselected hread hsettings =>
      simp [loadSettings, hselected.settingsPath?_eq, Settings.load, readText_of_read hread,
        hsettings]

theorem settings_cases (readers : Readers) (surroundings : Surroundings)
    (asked : Option String) :
    (∃ settings, SettingsInUse readers surroundings asked settings) ∨
      ∃ error, SettingsFail readers surroundings asked error := by
  have hselected := selectsSettings_settingsPath? surroundings asked
  cases hpath : settingsPath? surroundings asked with
  | none => exact .inl ⟨_, .defaults (hpath ▸ hselected)⟩
  | some path =>
      rw [hpath] at hselected
      cases hread : surroundings.tree.read path with
      | error cause => exact .inr ⟨_, .unreadable hselected hread⟩
      | ok bytes =>
          by_cases htext : ∃ text, String.toUTF8 text = bytes
          · obtain ⟨text, rfl⟩ := htext
            cases hsettings : readers.readSettings text with
            | ok settings => exact .inl ⟨settings, .file hselected hread hsettings⟩
            | error cause => exact .inr ⟨_, .invalid hselected hread hsettings⟩
          · exact .inr ⟨_, .noText hselected hread (not_exists.1 htext)⟩

end Classpath
