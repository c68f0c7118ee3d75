import Mathlib.Data.Nat.Find
import XprcServer.Fileio

/-!
# Settings

`settings.c` and `generate_password`: the password and the port have files of their own, all other
settings are lines of a key and a value.  A file that can be read is the list of its bytes; files
can be written, and the allocations succeed.

* `deserializeServerSettings_serialize` : the lines of some settings, read onto any others, set all
  but the password and the port;
* `loadServerSettings_save`, `loadPassword_save`, `loadPort_save` : the same for the three files.
-/

namespace XprcServer

/-- `settings_t` -/
structure Settings where
  password : Option (List UInt8)
  autoStartup : Bool
  autoRegenPassword : Bool
  networkInterface : Option (List UInt8)
  networkPort : ℤ
  networkEnableIpv6 : Bool
  logLevelXplane : ℤ
  logLevelConsole : ℤ
  deriving DecidableEq

/-! ### Fields -/

/-- The types of a field, with the place that its offset denotes -/
inductive SettingsFieldType where
  | boolean (get : Settings → Bool) (set : Settings → Bool → Settings)
  | integer (get : Settings → ℤ) (set : Settings → ℤ → Settings)
  | string (get : Settings → Option (List UInt8)) (set : Settings → Option (List UInt8) → Settings)

/-- `settings_field_t` -/
structure SettingsField where
  key : List UInt8
  type : SettingsFieldType
  standardized : Bool

/-- `settings_fields` -/
def settingsFields : List SettingsField := [
  ⟨bytes "auto_startup", .boolean (·.autoStartup) (fun s v => { s with autoStartup := v }), false⟩,
  ⟨bytes "auto_regen_password",
    .boolean (·.autoRegenPassword) (fun s v => { s with autoRegenPassword := v }), false⟩,
  ⟨bytes "log_level_console",
    .integer (·.logLevelConsole) (fun s v => { s with logLevelConsole := v }), false⟩,
  ⟨bytes "log_level_xplane",
    .integer (·.logLevelXplane) (fun s v => { s with logLevelXplane := v }), false⟩,
  ⟨bytes "network_interface",
    .string (·.networkInterface) (fun s v => { s with networkInterface := v }), false⟩,
  ⟨bytes "network_port", .integer (·.networkPort) (fun s v => { s with networkPort := v }), true⟩,
  ⟨bytes "network_enable_ipv6",
    .boolean (·.networkEnableIpv6) (fun s v => { s with networkEnableIpv6 := v }), false⟩]

/-- `SETTINGS_SERIALIZATION_KEY_VALUE_SEPARATOR` -/
def settingsSerializationKeyValueSeparator : UInt8 := 61

/-- `SETTINGS_SERIALIZATION_TRUE` and `SETTINGS_SERIALIZATION_FALSE` -/
def settingsSerializationBool (value : Bool) : List UInt8 :=
  if value then bytes "true" else bytes "false"

/-- `SETTINGS_SERIALIZATION_NULL` -/
def settingsSerializationNull : List UInt8 := bytes "#!<>$NULL$<>#!"

/-- The value that `serialize_setting` writes -/
def serializeValue (settings : Settings) : SettingsFieldType → List UInt8
  | .boolean get _ => settingsSerializationBool (get settings)
  | .integer get _ => decimalInt (get settings)
  | .string get _ =>
    match get settings with
    | none => settingsSerializationNull
    | some value => cString value

/-- `serialize_setting` -/
def serializeSetting (settings : Settings) (field : SettingsField) : List UInt8 :=
  field.key ++ [settingsSerializationKeyValueSeparator] ++ serializeValue settings field.type

/-- `serialize_server_settings` -/
def serializeServerSettings (settings : Settings) : List (List UInt8) :=
  (settingsFields.filter fun field => !field.standardized).map (serializeSetting settings)

/-- `get_settings_field` -/
def getSettingsField (key : List UInt8) : Option SettingsField :=
  settingsFields.find? fun field => cString key = field.key

/-- `deserialize_setting` -/
def deserializeSetting (lib : Library) (settings : Settings) (field : SettingsField)
    (s : List UInt8) : ErrorCode × Settings :=
  match field.type with
  | .boolean _ set =>
    if cString s = settingsSerializationBool true then (.none, set settings true)
    else if cString s = settingsSerializationBool false then (.none, set settings false)
    else (.unspecific, settings)
  | .integer _ set =>
    match parseInt lib s with
    | none => (.unspecific, settings)
    | some value => (.none, set settings value)
  | .string _ set =>
    (.none, set settings (if cString s = settingsSerializationNull then none else some (cString s)))

/-- The loop of `deserialize_server_settings`, with the error to return in the end -/
def deserializeLines (lib : Library) :
    List (List UInt8) → ErrorCode → Settings → ErrorCode × Settings
  | [], outErr, settings => (outErr, settings)
  | line :: lines, outErr, settings =>
    let separator := strpos line settingsSerializationKeyValueSeparator 0
    if separator < 1 then (.unspecific, settings)
    else
      match getSettingsField (line.take separator.toNat) with
      | none => deserializeLines lib lines .incomplete settings
      | some field =>
        let (err, settings) := deserializeSetting lib settings field
            (line.drop (separator.toNat + 1))
        deserializeLines lib lines (if err ≠ .none then .incomplete else outErr) settings

/-- `deserialize_server_settings` -/
def deserializeServerSettings (lib : Library) (settings : Settings) (lines : List (List UInt8)) :
    ErrorCode × Settings :=
  deserializeLines lib lines .none settings

/-! ### Values -/

/-- `NETWORK_MINIMUM_PORT` -/
def networkMinimumPort : ℤ := 1024

/-- `NETWORK_MAXIMUM_PORT` -/
def networkMaximumPort : ℤ := 65535

/-- `SETTINGS_LOG_LEVEL_INFO`, the default of both log levels -/
def settingsLogLevelInfo : ℤ := 60

/-- `validate_log_level` -/
def validateLogLevel (settingsLogLevel : ℤ) : Bool :=
  settingsLogLevel = 20 || settingsLogLevel = 40 || settingsLogLevel = settingsLogLevelInfo ||
    settingsLogLevel = 80 || settingsLogLevel = 100

/-- `default_settings` -/
def defaultSettings : Settings where
  password := none
  autoStartup := true
  autoRegenPassword := true
  logLevelConsole := settingsLogLevelInfo
  logLevelXplane := settingsLogLevelInfo
  networkInterface := some (bytes "localhost")
  networkPort := 23042
  networkEnableIpv6 := false

/-- `validate_settings` -/
def validateSettings (settings : Settings) (checkPassword : Bool) : Bool :=
  (!checkPassword || validatePassword settings.password) &&
    validateLogLevel settings.logLevelConsole && validateLogLevel settings.logLevelXplane &&
    !(settings.networkPort < networkMinimumPort || settings.networkPort > networkMaximumPort)

/-- `constrain_settings`: whether something was changed, and the settings afterwards -/
def constrainSettings (settings : Settings) : Bool × Settings :=
  let port := settings.networkPort
  let console := settings.logLevelConsole
  let xplane := settings.logLevelXplane
  (port < networkMinimumPort || port > networkMaximumPort || !validateLogLevel console ||
      !validateLogLevel xplane,
    { settings with
      networkPort := if port < networkMinimumPort then networkMinimumPort
        else if port > networkMaximumPort then networkMaximumPort else port
      logLevelConsole := if validateLogLevel console then console else settingsLogLevelInfo
      logLevelXplane := if validateLogLevel xplane then xplane else settingsLogLevelInfo })

/-- `copy_settings` -/
def copySettings (dest src : Settings) (copyPassword : Bool) : ErrorCode × Settings :=
  if copyPassword && src.password.isNone then (.unspecific, dest)
  else (.none, { src with
    networkInterface := src.networkInterface.map cString
    password := if copyPassword then src.password.map cString else dest.password })

/-! ### Passwords -/

/-- `password_chars` -/
def passwordChars : List UInt8 :=
  bytes "abcdefghijklmnopqrstuvwxyzABCDEFGHIJKLMNOPQRSTUVWXYZ0123456789-."

/-- The password for random indices -/
def passwordOf (random : List ℕ) : List UInt8 := random.map fun i => passwordChars.getD i 0

/-- `PASSWORD_LENGTH` -/
def passwordLength : ℕ := 32

/-- What `get_random_ints` returns round by round, until a password is valid -/
structure RandomInts where
  ints : ℕ → List ℕ
  count : ∀ k, (ints k).length = passwordLength
  inRange : ∀ k, ∀ i ∈ ints k, i < passwordChars.length
  valid : ∃ k, validatePassword (some (passwordOf (ints k))) = true

/-- `generate_password`: the first one that is valid -/
def generatePassword (random : RandomInts) : List UInt8 :=
  passwordOf (random.ints (Nat.find random.valid))

theorem validatePassword_generatePassword (random : RandomInts) :
    validatePassword (some (generatePassword random)) = true :=
  Nat.find_spec random.valid

theorem zero_not_mem_generatePassword (random : RandomInts) : 0 ∉ generatePassword random := by
  intro h
  obtain ⟨i, hi, hzero⟩ := List.mem_map.1 h
  have hmem : passwordChars.getD i 0 ∈ passwordChars := by
    rw [List.getD_eq_getElem?_getD, List.getElem?_eq_getElem (random.inRange _ i hi)]
    exact List.getElem_mem _
  rw [hzero] at hmem
  exact absurd hmem (by decide)

/-- What `zmalloc` returns for settings -/
def zeroSettings : Settings := ⟨none, false, false, none, 0, false, 0, 0⟩

/-- `create_settings` -/
def createSettings (random : RandomInts) : Settings :=
  { (copySettings zeroSettings defaultSettings false).2 with
    password := some (generatePassword random) }

/-! ### Files -/

/-- `load_server_settings`; a file that cannot be read leaves the settings as they are. -/
def loadServerSettings (lib : Library) (random : RandomInts) (dest : Settings)
    (file : Option (List UInt8)) : ErrorCode × Settings :=
  match readLinesFromFile file with
  | none => (.unspecific, dest)
  | some lines =>
    let (err, settings) := deserializeServerSettings lib (createSettings random) lines
    if err ≠ .none ∧ err ≠ .incomplete then (err, dest)
    else
      let (constrained, settings) := constrainSettings settings
      let (copyErr, dest) := copySettings dest settings false
      (if copyErr ≠ .none then copyErr else if constrained then .incomplete else err, dest)

/-- `save_server_settings`: the file afterwards -/
def saveServerSettings (lineEnd : LineEndSequence) (settings : Settings) : List UInt8 :=
  writeLinesToFile lineEnd (serializeServerSettings settings)

/-- `load_password` -/
def loadPassword (dest : Settings) (file : Option (List UInt8)) : ErrorCode × Settings :=
  match readFirstLineFromFile file with
  | none => (.unspecific, dest)
  | some loadedPassword => (.none, { dest with password := some loadedPassword })

/-- `save_password`: the file afterwards -/
def savePassword (settings : Settings) (file : Option (List UInt8)) :
    ErrorCode × Option (List UInt8) :=
  match settings.password with
  | none => (.unspecific, file)
  | some password => (.none, some (cString password))

/-- `load_port` -/
def loadPort (lib : Library) (dest : Settings) (file : Option (List UInt8)) :
    ErrorCode × Settings :=
  match readFirstLineFromFile file with
  | none => (.unspecific, dest)
  | some portString =>
    match parseInt lib portString with
    | none => (.unspecific, dest)
    | some port =>
      if port < networkMinimumPort ∨ port > networkMaximumPort then (.unspecific, dest)
      else (.none, { dest with networkPort := port })

/-- `save_port`: the file afterwards -/
def savePort (settings : Settings) (file : Option (List UInt8)) : ErrorCode × Option (List UInt8) :=
  if settings.networkPort < networkMinimumPort ∨ settings.networkPort > networkMaximumPort then
    (.unspecific, file)
  else (.none, some (decimalInt settings.networkPort))

/-! ### The lines of the settings -/

variable {settings dest : Settings}

/-- A value that can be written as part of a line and read again -/
def SettingsFieldType.Restorable (settings : Settings) : SettingsFieldType → Prop
  | .boolean _ _ => True
  | .integer get _ => -2 ^ 31 ≤ get settings ∧ get settings < 2 ^ 31
  | .string get _ => ∀ value ∈ get settings, PlainLine value ∧ value ≠ settingsSerializationNull

/-- The field of some settings is copied to others. -/
def SettingsFieldType.assign (settings dest : Settings) : SettingsFieldType → Settings
  | .boolean get set => set dest (get settings)
  | .integer get set => set dest (get settings)
  | .string get set => set dest (get settings)

theorem plainLine_append {first second : List UInt8} (hfirst : PlainLine first)
    (hsecond : PlainLine second) : PlainLine (first ++ second) :=
  ⟨by simp [hfirst.cr, hsecond.cr], by simp [hfirst.lf, hsecond.lf],
    by simp [hfirst.nul, hsecond.nul]⟩

theorem plainLine_decimalInt (value : ℤ) : PlainLine (decimalInt value) :=
  ⟨not_mem_decimalInt value (by decide) (by decide), not_mem_decimalInt value
    (by decide) (by decide), not_mem_decimalInt value (by decide) (by decide)⟩

theorem plainLine_settingsSerializationNull : PlainLine settingsSerializationNull :=
  ⟨by decide, by decide, by decide⟩

theorem plainLine_settingsSerializationBool (value : Bool) :
    PlainLine (settingsSerializationBool value) := by
  cases value <;> exact ⟨by decide, by decide, by decide⟩

theorem plainLine_serializeValue {type : SettingsFieldType} (h : type.Restorable settings) :
    PlainLine (serializeValue settings type) := by
  cases type with
  | boolean get set => exact plainLine_settingsSerializationBool (get settings)
  | integer get set => exact plainLine_decimalInt (get settings)
  | string get set =>
    rw [serializeValue]
    cases hvalue : get settings with
    | none => exact plainLine_settingsSerializationNull
    | some value =>
      have hplain := (h value hvalue).1
      dsimp only
      rw [hplain.cString]
      exact hplain

/-- A value that was written for a field is read back. -/
theorem deserializeSetting_serializeValue (lib : Library) {field : SettingsField}
    (h : field.type.Restorable settings) (dest : Settings) :
    deserializeSetting lib dest field (serializeValue settings field.type) =
      (.none, field.type.assign settings dest) := by
  have hplain := (plainLine_serializeValue h).cString
  unfold deserializeSetting
  cases htype : field.type with
  | boolean get set =>
    rw [htype] at hplain
    dsimp only
    rw [hplain, serializeValue, SettingsFieldType.assign]
    cases get settings with
    | true => rfl
    | false => rfl
  | integer get set =>
    rw [htype] at h
    dsimp only
    rw [serializeValue, parseInt_decimalInt lib h.1 h.2, SettingsFieldType.assign]
  | string get set =>
    rw [htype] at h hplain
    dsimp only
    rw [hplain, serializeValue, SettingsFieldType.assign]
    cases hvalue : get settings with
    | none => rfl
    | some value =>
      obtain ⟨hvaluePlain, hne⟩ := h value hvalue
      simp only [hvaluePlain.cString, if_neg hne]

/-- Every field is found under its key, and keys can be told from the separator. -/
theorem settingsFields_key {field : SettingsField} (h : field ∈ settingsFields) :
    getSettingsField field.key = some field ∧ PlainLine field.key ∧ field.key ≠ [] ∧
      settingsSerializationKeyValueSeparator ∉ field.key := by
  simp only [settingsFields, List.mem_cons, List.not_mem_nil, or_false] at h
  rcases h with rfl | rfl | rfl | rfl | rfl | rfl | rfl
  all_goals exact ⟨rfl, ⟨by decide, by decide, by decide⟩, by decide, by decide⟩

theorem plainLine_serializeSetting {field : SettingsField} (hfield : field ∈ settingsFields)
    (h : field.type.Restorable settings) : PlainLine (serializeSetting settings field) := by
  have hkey := (settingsFields_key hfield).2.1
  have hseparator : PlainLine [settingsSerializationKeyValueSeparator] :=
    ⟨by decide, by decide, by decide⟩
  exact plainLine_append (plainLine_append hkey hseparator) (plainLine_serializeValue h)

/-- One line is read as its field, and the rest goes on from there. -/
theorem deserializeLines_serializeSetting (lib : Library) {field : SettingsField}
    (hfield : field ∈ settingsFields) (h : field.type.Restorable settings)
    (lines : List (List UInt8)) (outErr : ErrorCode) (dest : Settings) :
    deserializeLines lib (serializeSetting settings field :: lines) outErr dest =
      deserializeLines lib lines outErr (field.type.assign settings dest) := by
  obtain ⟨hfound, -, hne, hseparator⟩ := settingsFields_key hfield
  have hlength : 0 < field.key.length := List.length_pos_iff.2 hne
  have hline : serializeSetting settings field =
      field.key ++ settingsSerializationKeyValueSeparator ::
        serializeValue settings field.type := by
    rw [serializeSetting, List.append_assoc]
    rfl
  have hdrop : (cString (serializeSetting settings field)).drop 0 =
      field.key ++ settingsSerializationKeyValueSeparator ::
        serializeValue settings field.type := by
    rw [(plainLine_serializeSetting hfield h).cString, hline]
    rfl
  have hpos : strpos (serializeSetting settings field) settingsSerializationKeyValueSeparator 0 =
      field.key.length := by
    simpa using strpos_eq hdrop hseparator
  have hvalue : (serializeSetting settings field).drop (field.key.length + 1) =
      serializeValue settings field.type := by
    rw [hline]
    simp
  have hkey : (serializeSetting settings field).take field.key.length = field.key := by
    rw [hline, List.take_left]
  rw [deserializeLines, hpos, if_neg (by omega), Int.toNat_natCast, hkey, hfound, hvalue]
  dsimp only
  rw [deserializeSetting_serializeValue lib h]
  rfl

theorem deserializeLines_map_serializeSetting (lib : Library) {fields : List SettingsField}
    (hfields : ∀ field ∈ fields, field ∈ settingsFields ∧ field.type.Restorable settings)
    (outErr : ErrorCode) (dest : Settings) :
    deserializeLines lib (fields.map (serializeSetting settings)) outErr dest =
      (outErr, fields.foldl (fun dest field => field.type.assign settings dest) dest) := by
  induction fields generalizing dest with
  | nil => rfl
  | cons field fields ih =>
    obtain ⟨hfield, h⟩ := hfields field List.mem_cons_self
    rw [List.map_cons, deserializeLines_serializeSetting lib hfield h]
    exact ih (fun other hother => hfields other (List.mem_cons_of_mem _ hother)) _

/-- Settings that survive a round trip: they are valid, and their texts are C strings without line
ends, the interface not being the text that stands for none. -/
structure Settings.Restorable (settings : Settings) : Prop where
  valid : validateSettings settings true = true
  password : ∀ password ∈ settings.password, 0 ∉ password
  networkInterface : ∀ networkInterface ∈ settings.networkInterface,
    PlainLine networkInterface ∧ networkInterface ≠ settingsSerializationNull

theorem validateLogLevel_bounds {level : ℤ} (h : validateLogLevel level = true) :
    -2 ^ 31 ≤ level ∧ level < 2 ^ 31 := by
  simp only [validateLogLevel, Bool.or_eq_true, decide_eq_true_eq] at h
  unfold settingsLogLevelInfo at h
  omega

theorem Settings.Restorable.logLevels (h : settings.Restorable) :
    validateLogLevel settings.logLevelConsole = true ∧
      validateLogLevel settings.logLevelXplane = true := by
  have hvalid := h.valid
  simp only [validateSettings, Bool.and_eq_true] at hvalid
  exact ⟨hvalid.1.1.2, hvalid.1.2⟩

theorem Settings.Restorable.port (h : settings.Restorable) :
    networkMinimumPort ≤ settings.networkPort ∧ settings.networkPort ≤ networkMaximumPort := by
  have hvalid := h.valid
  simp only [validateSettings, Bool.and_eq_true, Bool.not_eq_true', Bool.or_eq_false_iff,
    decide_eq_false_iff_not] at hvalid
  omega

theorem Settings.Restorable.fields (h : settings.Restorable) {field : SettingsField}
    (hfield : field ∈ settingsFields) : field.type.Restorable settings := by
  have hport := h.port
  simp only [networkMinimumPort, networkMaximumPort] at hport
  simp only [settingsFields, List.mem_cons, List.not_mem_nil, or_false] at hfield
  rcases hfield with rfl | rfl | rfl | rfl | rfl | rfl | rfl
  · trivial
  · trivial
  · exact validateLogLevel_bounds h.logLevels.1
  · exact validateLogLevel_bounds h.logLevels.2
  · exact h.networkInterface
  · exact ⟨by dsimp only; omega, by dsimp only; omega⟩
  · trivial

/-- **The lines of some settings set all but the password and the port.** -/
theorem deserializeServerSettings_serialize (lib : Library) (h : settings.Restorable)
    (dest : Settings) :
    deserializeServerSettings lib dest (serializeServerSettings settings) =
      (.none, { settings with password := dest.password, networkPort := dest.networkPort }) := by
  rw [deserializeServerSettings, serializeServerSettings, deserializeLines_map_serializeSetting lib]
  · rfl
  · intro field hfield
    have hmem := List.mem_of_mem_filter hfield
    exact ⟨hmem, h.fields hmem⟩

/-! ### The files of the settings -/

theorem constrainSettings_eq (h1 : networkMinimumPort ≤ settings.networkPort)
    (h2 : settings.networkPort ≤ networkMaximumPort)
    (hconsole : validateLogLevel settings.logLevelConsole = true)
    (hxplane : validateLogLevel settings.logLevelXplane = true) :
    constrainSettings settings = (false, settings) := by
  have h1 : ¬ settings.networkPort < networkMinimumPort := by omega
  have h2 : ¬ settings.networkPort > networkMaximumPort := by omega
  simp [constrainSettings, h1, h2, hconsole, hxplane]

@[simp] theorem createSettings_networkPort (random : RandomInts) :
    (createSettings random).networkPort = 23042 := rfl

theorem Settings.Restorable.cString_networkInterface (h : settings.Restorable) :
    settings.networkInterface.map cString = settings.networkInterface := by
  cases hinterface : settings.networkInterface with
  | none => rfl
  | some networkInterface =>
    exact congrArg some (h.networkInterface networkInterface hinterface).1.cString

/-- **The settings file** restores all but the password and the port, which gets its default. -/
theorem loadServerSettings_save (lib : Library) (lineEnd : LineEndSequence) (random : RandomInts)
    (h : settings.Restorable) (dest : Settings) :
    loadServerSettings lib random dest (some (saveServerSettings lineEnd settings)) =
      (.none, { settings with password := dest.password, networkPort := 23042 }) := by
  have hplain : ∀ line ∈ serializeServerSettings settings, PlainLine line := by
    intro line hline
    obtain ⟨field, hfield, rfl⟩ := List.mem_map.1 hline
    have hmem := List.mem_of_mem_filter hfield
    exact plainLine_serializeSetting hmem (h.fields hmem)
  have hne : serializeServerSettings settings ≠ [] := by
    simp [serializeServerSettings, settingsFields]
  rw [loadServerSettings, saveServerSettings, readLinesFromFile_writeLinesToFile lineEnd hplain,
    if_neg hne]
  dsimp only
  rw [deserializeServerSettings_serialize lib h]
  have hlow : networkMinimumPort ≤ 23042 := by decide
  have hhigh : 23042 ≤ networkMaximumPort := by decide
  have hconstrain : constrainSettings { settings with
        password := (createSettings random).password, networkPort := 23042 } =
      (false, { settings with
        password := (createSettings random).password, networkPort := 23042 }) :=
    constrainSettings_eq hlow hhigh h.logLevels.1 h.logLevels.2
  dsimp only
  rw [if_neg (by simp), createSettings_networkPort, hconstrain]
  simp [copySettings, h.cString_networkInterface]

theorem not_mem_of_countPassword {password : List UInt8} {counts counts' : PasswordCounts}
    (h : countPassword password counts = some counts') : 13 ∉ password ∧ 10 ∉ password := by
  induction password generalizing counts with
  | nil => simp
  | cons ch chs ih =>
    rw [countPassword] at h
    have hch : ∀ lineEnd : UInt8, lineEnd = 13 ∨ lineEnd = 10 → lineEnd ≠ ch := by
      rintro lineEnd (rfl | rfl) rfl
      · simp at h
      · simp at h
    have hchs : 13 ∉ chs ∧ 10 ∉ chs := by
      split_ifs at h
      all_goals exact ih h
    exact ⟨by simp [hch 13 (.inl rfl), hchs.1], by simp [hch 10 (.inr rfl), hchs.2]⟩

/-- A password that was accepted has no line ends. -/
theorem validatePassword_plainLine {password : List UInt8}
    (h : validatePassword (some password) = true) (hnul : 0 ∉ password) : PlainLine password := by
  have hcString := cString_eq_self hnul
  unfold validatePassword at h
  dsimp only at h
  rw [hcString] at h
  split_ifs at h
  cases hcount : countPassword password ⟨0, 0, 0, 0⟩ with
  | none =>
    rw [hcount] at h
    cases h
  | some counts =>
    obtain ⟨hcr, hlf⟩ := not_mem_of_countPassword hcount
    exact ⟨hcr, hlf, hnul⟩

theorem readFirstLineFromFile_plainLine {line : List UInt8} (h : PlainLine line) :
    readFirstLineFromFile (some line) = some line := by
  rw [readFirstLineFromFile, readLinesFromFile, Option.map_some, splitLines_of_noLineEnd h.cr h.lf]
  rfl

/-- A restorable password is there, and can be written as one line. -/
theorem Settings.Restorable.exists_password (h : settings.Restorable) :
    ∃ password, settings.password = some password ∧ PlainLine password := by
  have hvalid := h.valid
  simp only [validateSettings, Bool.not_true, Bool.false_or, Bool.and_eq_true] at hvalid
  have hpassword := hvalid.1.1.1
  cases hsome : settings.password with
  | none =>
    rw [hsome] at hpassword
    cases hpassword
  | some password =>
    rw [hsome] at hpassword
    exact ⟨password, rfl, validatePassword_plainLine hpassword (h.password password hsome)⟩

theorem savePassword_eq (h : settings.Restorable) (file : Option (List UInt8)) :
    savePassword settings file = (.none, settings.password) := by
  obtain ⟨password, hpassword, hplain⟩ := h.exists_password
  rw [savePassword, hpassword]
  dsimp only
  rw [hplain.cString]

/-- **The password file** restores the password. -/
theorem loadPassword_save (h : settings.Restorable) (dest : Settings) :
    loadPassword dest settings.password = (.none, { dest with password := settings.password }) := by
  obtain ⟨password, hpassword, hplain⟩ := h.exists_password
  rw [hpassword, loadPassword, readFirstLineFromFile_plainLine hplain]

theorem Settings.Restorable.port_inRange (h : settings.Restorable) :
    ¬ (settings.networkPort < networkMinimumPort ∨ settings.networkPort > networkMaximumPort) := by
  have hport := h.port
  omega

theorem savePort_eq (h : settings.Restorable) (file : Option (List UInt8)) :
    savePort settings file = (.none, some (decimalInt settings.networkPort)) :=
  if_neg h.port_inRange

/-- **The port file** restores the port. -/
theorem loadPort_save (lib : Library) (h : settings.Restorable) (dest : Settings) :
    loadPort lib dest (some (decimalInt settings.networkPort)) =
      (.none, { dest with networkPort := settings.networkPort }) := by
  have hport := h.port
  simp only [networkMinimumPort, networkMaximumPort] at hport
  rw [loadPort, readFirstLineFromFile_plainLine (plainLine_decimalInt _)]
  dsimp only
  rw [parseInt_decimalInt lib (by omega) (by omega)]
  exact if_neg h.port_inRange

end XprcServer
