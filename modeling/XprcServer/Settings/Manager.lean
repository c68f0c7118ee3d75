import XprcServer.Settings.Basic

/-!
# The settings manager

`settings_manager.c`: settings are kept in three files.  They are loaded by a manager that has just
been created, with default settings and a password of its own; that password takes the place of the
one that was saved if it is to be generated anew.  The manager is locked, the directories exist, and
files can be written.

* `configureSettingsManagerFromStorage_persist` : what one manager has saved, another one restores.
-/

namespace XprcServer

/-- The files of the settings; one that is not there cannot be read. -/
structure SettingsFiles where
  password : Option (List UInt8)
  port : Option (List UInt8)
  settings : Option (List UInt8)

/-- `settings_manager_t` -/
structure SettingsManager where
  settings : Settings

/-- What `configure_settings_manager_from_storage` returns: `ERROR_NONE`, or one of
`SETTINGS_MANAGER_ERROR_*` (but that of settings that cannot be saved) -/
inductive SettingsManagerError where
  | none
  | settingsReverted
  | passwordInvalid
  | passwordNotLoaded
  | passwordNotSaved
  | portNotSaved
  | noPreviousSettings
  deriving DecidableEq

/-- `create_settings_manager` -/
def createSettingsManager (random : RandomInts) : SettingsManager := ⟨createSettings random⟩

/-- `persist_settings_from_manager`: the last error, and the files afterwards -/
def persistSettingsFromManager (lineEnd : LineEndSequence) (manager : SettingsManager)
    (files : SettingsFiles) : ErrorCode × SettingsFiles :=
  let (passwordErr, password) := savePassword manager.settings files.password
  let (portErr, port) := savePort manager.settings files.port
  (if portErr ≠ .none then portErr else passwordErr,
    ⟨password, port, some (saveServerSettings lineEnd manager.settings)⟩)

/-- The settings file in `configure_settings_manager_from_storage`: saved if there are no files yet,
and otherwise loaded.  The flag says that loading failed. -/
def configureServerSettings (lib : Library) (lineEnd : LineEndSequence) (random : RandomInts)
    (isFirstInitialization : Bool) (settings : Settings) (files : SettingsFiles) :
    Bool × Settings × SettingsFiles :=
  if isFirstInitialization then
    (false, settings, { files with settings := some (saveServerSettings lineEnd settings) })
  else
    let (err, settings) := loadServerSettings lib random settings files.settings
    (err ≠ .none, settings, files)

/-- The password file in `configure_settings_manager_from_storage`: the password is saved if it was
generated anew, and otherwise loaded.  The flags say that loading or saving failed. -/
def configurePassword (settings : Settings) (files : SettingsFiles) :
    Bool × Bool × Settings × SettingsFiles :=
  if settings.autoRegenPassword then
    let (err, password) := savePassword settings files.password
    (false, err ≠ .none, settings, { files with password := password })
  else
    let (err, settings) := loadPassword settings files.password
    (err ≠ .none, false, settings, files)

/-- The port file in `configure_settings_manager_from_storage`: loaded if it exists, and saved if it
does not or cannot be loaded.  The flag says that saving failed. -/
def configurePort (lib : Library) (settings : Settings) (files : SettingsFiles) :
    Bool × Settings × SettingsFiles :=
  let (load, settings) :=
    if files.port.isSome then
      let (err, settings) := loadPort lib settings files.port
      (err ≠ .none, settings)
    else (false, settings)
  if !files.port.isSome || load then
    let (err, port) := savePort settings files.port
    (err ≠ .none, settings, { files with port := port })
  else (false, settings, files)

/-- `configure_settings_manager_from_storage` -/
def configureSettingsManagerFromStorage (lib : Library) (lineEnd : LineEndSequence)
    (random : RandomInts) (manager : SettingsManager) (files : SettingsFiles) :
    SettingsManagerError × SettingsManager × SettingsFiles :=
  let isFirstInitialization :=
    !files.settings.isSome && !files.password.isSome && !files.port.isSome
  let (failedSettingsLoad, settings, files) :=
    configureServerSettings lib lineEnd random isFirstInitialization manager.settings files
  let (failedPasswordLoad, failedPasswordSave, settings, files) := configurePassword settings files
  let isPasswordValid := validatePassword settings.password
  let (failedPortSave, settings, files) := configurePort lib settings files
  (if failedSettingsLoad then .settingsReverted
    else if !isPasswordValid then .passwordInvalid
    else if failedPasswordLoad then .passwordNotLoaded
    else if failedPasswordSave then .passwordNotSaved
    else if failedPortSave then .portNotSaved
    else if isFirstInitialization then .noPreviousSettings
    else .none, ⟨settings⟩, files)

/-! ### The round trip -/

variable {settings : Settings}

/-- What is in the files after some settings were saved -/
theorem persistSettingsFromManager_eq (lineEnd : LineEndSequence) (h : settings.Restorable)
    (files : SettingsFiles) :
    persistSettingsFromManager lineEnd ⟨settings⟩ files =
      (.none, ⟨settings.password, some (decimalInt settings.networkPort),
        some (saveServerSettings lineEnd settings)⟩) := by
  rw [persistSettingsFromManager, savePassword_eq h, savePort_eq h]
  rfl

/-- The settings file restores all but the password and the port. -/
theorem configureServerSettings_eq (lib : Library) (lineEnd : LineEndSequence) (random : RandomInts)
    (h : settings.Restorable) (dest : Settings) (password port : Option (List UInt8)) :
    configureServerSettings lib lineEnd random false dest
        ⟨password, port, some (saveServerSettings lineEnd settings)⟩ =
      (false, { settings with password := dest.password, networkPort := 23042 },
        ⟨password, port, some (saveServerSettings lineEnd settings)⟩) := by
  rw [configureServerSettings, if_neg Bool.false_ne_true]
  dsimp only
  rw [loadServerSettings_save lib lineEnd random h]
  rfl

/-- The password is loaded from its file, or stays and is saved. -/
theorem configurePassword_eq (h : settings.Restorable) (dest : Settings) {password : List UInt8}
    (hregen : dest.autoRegenPassword = settings.autoRegenPassword)
    (hpassword : dest.password = some password) (hnul : 0 ∉ password)
    (port file : Option (List UInt8)) :
    configurePassword dest ⟨settings.password, port, file⟩ =
      if settings.autoRegenPassword then (false, false, dest, ⟨some password, port, file⟩)
      else (false, false, { dest with password := settings.password },
        ⟨settings.password, port, file⟩) := by
  cases hsettings : settings.autoRegenPassword with
  | true =>
    rw [configurePassword, if_pos (hregen.trans hsettings), if_pos rfl, savePassword, hpassword]
    dsimp only
    rw [cString_eq_self hnul]
    rfl
  | false =>
    have hdest : ¬ dest.autoRegenPassword = true := by simp [hregen, hsettings]
    rw [configurePassword, if_neg hdest, if_neg Bool.false_ne_true]
    dsimp only
    rw [loadPassword_save h]
    rfl

theorem configurePort_eq (lib : Library) (h : settings.Restorable) (dest : Settings)
    (password file : Option (List UInt8)) :
    configurePort lib dest ⟨password, some (decimalInt settings.networkPort), file⟩ =
      (false, { dest with networkPort := settings.networkPort },
        ⟨password, some (decimalInt settings.networkPort), file⟩) := by
  rw [configurePort, Option.isSome_some, if_pos rfl, loadPort_save lib h]
  rfl

/-- **What one manager has saved, another one restores**, whatever the files were before: all
settings if the password is not to be generated anew, and otherwise all but the password, which is
then valid and the one in the password file. -/
theorem configureSettingsManagerFromStorage_persist (lib : Library) (lineEnd : LineEndSequence)
    (fresh temporary : RandomInts) (h : settings.Restorable) (files : SettingsFiles) :
    (persistSettingsFromManager lineEnd ⟨settings⟩ files).1 = .none ∧
    ∃ restored after, configureSettingsManagerFromStorage lib lineEnd temporary
        (createSettingsManager fresh) (persistSettingsFromManager lineEnd ⟨settings⟩ files).2 =
          (.none, ⟨restored⟩, after) ∧
      restored = { settings with password := restored.password } ∧
      (settings.autoRegenPassword = false → restored.password = settings.password) ∧
      (settings.autoRegenPassword = true → validatePassword restored.password = true ∧
        after.password = restored.password) := by
  rw [persistSettingsFromManager_eq lineEnd h]
  refine ⟨rfl, ?_⟩
  have hfirst :
      (!(some (saveServerSettings lineEnd settings)).isSome && !settings.password.isSome &&
      !(some (decimalInt settings.networkPort)).isSome) = false := rfl
  have hpassword : (createSettingsManager fresh).settings.password =
      some (generatePassword fresh) :=
    rfl
  have hconfigure := configurePassword_eq h { settings with
      password := some (generatePassword fresh), networkPort := 23042 } rfl rfl
    (zero_not_mem_generatePassword fresh) (some (decimalInt settings.networkPort))
    (some (saveServerSettings lineEnd settings))
  simp only [configureSettingsManagerFromStorage, hfirst,
    configureServerSettings_eq lib lineEnd temporary h, hpassword, hconfigure]
  cases hregen : settings.autoRegenPassword with
  | true =>
    -- the password that the manager was created with stays, and is saved
    simp only [if_true, configurePort_eq lib h, validatePassword_generatePassword]
    exact ⟨_, _, rfl, rfl, fun h => absurd h (by simp),
      fun _ => ⟨validatePassword_generatePassword fresh, rfl⟩⟩
  | false =>
    have hvalid := h.valid
    simp only [validateSettings, Bool.not_true, Bool.false_or, Bool.and_eq_true] at hvalid
    simp only [Bool.false_eq_true, if_false, configurePort_eq lib h, hvalid.1.1.1]
    exact ⟨_, _, rfl, rfl, fun _ => rfl, fun h => absurd h (by simp)⟩

/-- Every second character, in turn, makes a valid password. -/
def exampleRandomInts : RandomInts where
  ints := fun _ => (List.range 32).map (2 * · + 1)
  count := fun _ => by decide
  inRange := fun _ => by decide
  valid := ⟨0, by decide⟩

/-- Settings with a password that is kept -/
def exampleSettings : Settings :=
  { defaultSettings with
    password := some (bytes "abcABC123456789."), autoRegenPassword := false, networkPort := 40000 }

theorem exampleSettings_restored :
    ∃ restored after, configureSettingsManagerFromStorage
        ⟨fun _ => 0, fun _ => none, fun _ => 0, fun _ _ => true⟩ .crLf exampleRandomInts
        (createSettingsManager exampleRandomInts)
        (persistSettingsFromManager .crLf ⟨exampleSettings⟩ ⟨none, none, none⟩).2 =
          (.none, ⟨restored⟩, after) ∧
      restored.password = some (bytes "abcABC123456789.") := by
  have h : exampleSettings.Restorable :=
    ⟨by decide, by decide, by
      intro networkInterface hinterface
      obtain rfl := Option.mem_some_iff.1 hinterface
      exact ⟨⟨by decide, by decide, by decide⟩, by decide⟩⟩
  obtain ⟨-, restored, after, hconfigure, -, hkept, -⟩ :=
    configureSettingsManagerFromStorage_persist
      ⟨fun _ => 0, fun _ => none, fun _ => 0, fun _ _ => true⟩ .crLf exampleRandomInts
      exampleRandomInts h ⟨none, none, none⟩
  exact ⟨restored, after, hconfigure, hkept rfl⟩

end XprcServer
