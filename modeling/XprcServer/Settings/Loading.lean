import XprcServer.Settings.Manager

/-!
# Loading the settings of the server

`load_server_settings` again, with allocations that may fail.  A temporary instance with default
values is filled line by line, constrained, and copied onto the destination.  Serialisation leaves
out the fields that are standardised, but `get_settings_field` finds them all, and `copy_settings`
copies all of them but the password.  So the port of the destination is always replaced: by that of
the file, which has none if it was written by the plugin, or by the default.

* `loadServerSettings_refused` : an error other than `ERROR_INCOMPLETE` leaves the destination
  alone;
* `loadServerSettings_applied` : otherwise it gets the port of the lines, and keeps the password;
* `keepsStandardized_iff` : so the standardised settings are kept iff nothing is loaded or the port
  is already the one to be loaded;
* `loadServerSettings_enough` : with enough memory, this is the loading of `Settings/Manager`.
-/

namespace XprcServer

namespace SettingsFile

/-- The outcomes of the allocations while a file is loaded; those for lines by the number of the
line -/
structure Memory where
  /-- `create_settings` -/
  settings : Bool
  /-- the copy of a key -/
  key : ℕ → Bool
  /-- the copy of a text, or of the text of a number -/
  value : ℕ → Bool
  /-- the copy of the interface in the end -/
  networkInterface : Bool

/-- No allocation fails. -/
def Memory.enough : Memory := ⟨true, fun _ => true, fun _ => true, true⟩

/-- `deserialize_setting` -/
def deserializeSetting (lib : Library) (memory : Bool) (settings : Settings) (field : SettingsField)
    (s : List UInt8) : ErrorCode × Settings :=
  match field.type with
  | .boolean _ set =>
    if cString s = settingsSerializationBool true then (.none, set settings true)
    else if cString s = settingsSerializationBool false then (.none, set settings false)
    else (.unspecific, settings)
  | .integer _ set =>
    match if memory then parseInt lib s else none with
    | none => (.unspecific, settings)
    | some value => (.none, set settings value)
  | .string _ set =>
    if cString s = settingsSerializationNull then (.none, set settings none)
    else if memory then (.none, set settings (some (cString s)))
    else (.memoryAllocation, settings)

/-- The position of the separator in a line -/
def separator (line : List UInt8) : ℤ := strpos line settingsSerializationKeyValueSeparator 0

/-- The key of a line -/
def lineKey (line : List UInt8) : List UInt8 := line.take (separator line).toNat

/-- The value of a line -/
def lineValue (line : List UInt8) : List UInt8 := line.drop ((separator line).toNat + 1)

/-- The loop of `deserialize_server_settings`, from line number `i` on -/
def deserializeLines (lib : Library) (memory : Memory) :
    ℕ → List (List UInt8) → ErrorCode → Settings → ErrorCode × Settings
  | _, [], outErr, settings => (outErr, settings)
  | i, line :: lines, outErr, settings =>
    if separator line < 1 then (.unspecific, settings)
    else if memory.key i = false then (.memoryAllocation, settings)
    else
      match getSettingsField (lineKey line) with
      | none => deserializeLines lib memory (i + 1) lines .incomplete settings
      | some field =>
        let (err, settings) := deserializeSetting lib (memory.value i) settings field
            (lineValue line)
        deserializeLines lib memory (i + 1) lines (if err ≠ .none then .incomplete else
          outErr) settings

/-- `copy_settings` without the password -/
def copySettings (memory : Bool) (dest src : Settings) : ErrorCode × Settings :=
  if src.networkInterface.isSome && !memory then (.memoryAllocation, dest)
  else XprcServer.copySettings dest src false

/-- `load_server_settings`; the file is what `read_lines_from_file` reads before it cuts the
lines. -/
def loadServerSettings (lib : Library) (random : RandomInts) (memory : Memory) (dest : Settings)
    (file : Except ErrorCode (List UInt8)) : ErrorCode × Settings :=
  if memory.settings = false then (.memoryAllocation, dest)
  else
    match file with
    | .error err => (err, dest)
    | .ok text =>
      let (err, settings) :=
        deserializeLines lib memory 0 (splitLines text) .none (createSettings random)
      if err ≠ .none ∧ err ≠ .incomplete then (err, dest)
      else
        let (constrained, settings) := constrainSettings settings
        let (copyErr, dest) := copySettings memory.networkInterface dest settings
        (if copyErr ≠ .none then copyErr else if constrained then .incomplete else err, dest)

/-! ### What the lines say -/

/-- A line that is not malformed: it has a key before the separator. -/
def HasKey (line : List UInt8) : Prop := 1 ≤ separator line

/-- The port that a line gives, if any -/
def portOfLine (lib : Library) (memory : Bool) (line : List UInt8) : Option ℤ :=
  if cString (lineKey line) = bytes "network_port" ∧ memory = true then
    parseInt lib (lineValue line)
  else none

/-- The interface that a line gives, if any -/
def interfaceOfLine (memory : Bool) (line : List UInt8) : Option (Option (List UInt8)) :=
  if cString (lineKey line) ≠ bytes "network_interface" then none
  else if cString (lineValue line) = settingsSerializationNull then some none
  else if memory then some (some (cString (lineValue line)))
  else none

/-- What the last of the lines that gives anything gives, from line number `i` on; a value to begin
with otherwise. -/
def lastOfLines {α : Type} (give : Bool → List UInt8 → Option α) (memory : Memory) :
    ℕ → List (List UInt8) → α → α
  | _, [], value => value
  | i, line :: lines, value =>
    lastOfLines give memory (i + 1) lines ((give (memory.value i) line).getD value)

/-- The next port in the range that is allowed -/
def clampPort (port : ℤ) : ℤ :=
  if port < networkMinimumPort then networkMinimumPort
  else if port > networkMaximumPort then networkMaximumPort else port

/-- The port of the file: that of its last line with a number for it, otherwise the default. -/
def filePort (lib : Library) (memory : Memory) (lines : List (List UInt8)) : ℤ :=
  clampPort (lastOfLines (portOfLine lib) memory 0 lines 23042)

/-- The interface of the file -/
def fileInterface (memory : Memory) (lines : List (List UInt8)) : Option (List UInt8) :=
  lastOfLines interfaceOfLine memory 0 lines (some (bytes "localhost"))

/-- A line stops the loading: it is malformed, or its key cannot be copied. -/
def StopsAt (memory : Memory) (i : ℕ) (line : List UInt8) : Prop :=
  ¬ HasKey line ∨ memory.key i = false

/-- Nothing is loaded: memory is missing for the settings or in the end for the interface, the file
cannot be read, or one of its lines stops the loading. -/
def Refused (memory : Memory) (file : Except ErrorCode (List UInt8)) : Prop :=
  memory.settings = false ∨
    match file with
    | .error _ => True
    | .ok text =>
      (∃ i line, (splitLines text)[i]? = some line ∧ StopsAt memory i line) ∨
        memory.networkInterface = false ∧ (fileInterface memory (splitLines text)).isSome = true

variable {lib : Library} {random : RandomInts} {memory : Memory} {settings dest : Settings}
  {field : SettingsField} {file : Except ErrorCode (List UInt8)}

/-! ### Lines -/

theorem getSettingsField_mem {key : List UInt8} (h : getSettingsField key = some field) :
    field ∈ settingsFields ∧ field.key = cString key := by
  have hkey := List.find?_some h
  exact ⟨List.mem_of_find?_eq_some h, (of_decide_eq_true hkey).symm⟩

/-- A key without a field is none of those that are known. -/
theorem getSettingsField_none {key : List UInt8} (h : getSettingsField key = none) :
    cString key ≠ bytes "network_port" ∧ cString key ≠ bytes "network_interface" := by
  constructor
  · intro hkey
    rw [getSettingsField, hkey] at h
    exact absurd h (by decide)
  · intro hkey
    rw [getSettingsField, hkey] at h
    exact absurd h (by decide)

/-- What a value of a field changes of port and interface. -/
structure ChangesField (lib : Library) (memory : Bool) (key s : List UInt8)
    (settings settings' : Settings) :
    Prop where
  networkPort : settings'.networkPort =
    (if key = bytes "network_port" ∧ memory = true then parseInt lib s else none).getD
      settings.networkPort
  networkInterface : settings'.networkInterface =
    (if key ≠ bytes "network_interface" then none
      else if cString s = settingsSerializationNull then some none
      else if memory then some (some (cString s)) else none).getD settings.networkInterface

/-- A field that is neither of them changes neither of them. -/
theorem ChangesField.other {key s : List UInt8} {settings' : Settings} (memory : Bool)
    (hport : key ≠ bytes "network_port") (hinterface : key ≠ bytes "network_interface")
    (h : settings'.networkPort = settings.networkPort ∧
      settings'.networkInterface = settings.networkInterface) :
    ChangesField lib memory key s settings settings' := by
  constructor
  · rw [if_neg fun h => hport h.1]
    exact h.1
  · rw [if_pos hinterface]
    exact h.2

theorem deserializeSetting_changes (lib : Library) (memory : Bool) (settings : Settings)
    (hfield : field ∈ settingsFields) (s : List UInt8) :
    ChangesField lib memory field.key s settings
      (deserializeSetting lib memory settings field s).2 := by
  simp only [settingsFields, List.mem_cons, List.not_mem_nil, or_false] at hfield
  rcases hfield with rfl | rfl | rfl | rfl | rfl | rfl | rfl
  · refine .other memory (by decide) (by decide) ?_
    simp only [deserializeSetting]
    split_ifs <;> exact ⟨rfl, rfl⟩
  · refine .other memory (by decide) (by decide) ?_
    simp only [deserializeSetting]
    split_ifs <;> exact ⟨rfl, rfl⟩
  · refine .other memory (by decide) (by decide) ?_
    simp only [deserializeSetting]
    split <;> exact ⟨rfl, rfl⟩
  · refine .other memory (by decide) (by decide) ?_
    simp only [deserializeSetting]
    split <;> exact ⟨rfl, rfl⟩
  · constructor
    · rw [if_neg fun h => absurd h.1 (by decide)]
      simp only [deserializeSetting]
      split_ifs <;> rfl
    · rw [if_neg (not_not.2 rfl)]
      simp only [deserializeSetting]
      split_ifs <;> rfl
  · constructor
    · simp only [deserializeSetting, true_and]
      split <;> rename_i hparsed <;> rw [hparsed] <;> rfl
    · rw [if_pos (by decide)]
      simp only [deserializeSetting]
      split <;> rfl
  · refine .other memory (by decide) (by decide) ?_
    simp only [deserializeSetting]
    split_ifs <;> exact ⟨rfl, rfl⟩

/-- A line that stops the loading makes for an error other than `ERROR_INCOMPLETE`. -/
theorem deserializeLines_stops {lines : List (List UInt8)} {i : ℕ} (outErr : ErrorCode)
    (settings : Settings)
    (h : ∃ k line, lines[k]? = some line ∧ StopsAt memory (i + k) line) :
    (deserializeLines lib memory i lines outErr settings).1 ≠ .none ∧
      (deserializeLines lib memory i lines outErr settings).1 ≠ .incomplete := by
  induction lines generalizing i outErr settings with
  | nil =>
    obtain ⟨k, line, hline, -⟩ := h
    cases hline
  | cons line lines ih =>
    rw [deserializeLines]
    by_cases hseparator : separator line < 1
    · rw [if_pos hseparator]
      exact ⟨ErrorCode.noConfusion, ErrorCode.noConfusion⟩
    rw [if_neg hseparator]
    by_cases hkey : memory.key i = false
    · rw [if_pos hkey]
      exact ⟨ErrorCode.noConfusion, ErrorCode.noConfusion⟩
    rw [if_neg hkey]
    -- so it is one of the other lines that stops
    have hrest : ∃ k line, lines[k]? = some line ∧ StopsAt memory (i + 1 + k) line := by
      obtain ⟨k, stopping, hline, hstops⟩ := h
      cases k with
      | zero =>
        obtain rfl := Option.some.inj hline
        rcases hstops with hseparator' | hkey'
        · exact absurd hseparator (by rw [HasKey] at hseparator'; omega)
        · exact absurd hkey' hkey
      | succ k =>
        exact ⟨k, stopping, hline, by rw [show i + 1 + k = i + (k + 1) by omega]; exact hstops⟩
    cases getSettingsField (lineKey line) with
    | none => exact ih _ _ hrest
    | some field => exact ih _ _ hrest

/-- Without such a line the fields get what the lines give. -/
theorem deserializeLines_applied {lines : List (List UInt8)} {i : ℕ} {outErr : ErrorCode}
    (settings : Settings) (herr : outErr = .none ∨ outErr = .incomplete)
    (h : ∀ k line, lines[k]? = some line → ¬ StopsAt memory (i + k) line) :
    ((deserializeLines lib memory i lines outErr settings).1 = .none ∨
      (deserializeLines lib memory i lines outErr settings).1 = .incomplete) ∧
    (deserializeLines lib memory i lines outErr settings).2.networkPort =
      lastOfLines (portOfLine lib) memory i lines settings.networkPort ∧
    (deserializeLines lib memory i lines outErr settings).2.networkInterface =
      lastOfLines interfaceOfLine memory i lines settings.networkInterface := by
  induction lines generalizing i outErr settings with
  | nil => exact ⟨herr, rfl, rfl⟩
  | cons line lines ih =>
    obtain ⟨hseparator, hkey⟩ : ¬ ¬ HasKey line ∧ ¬ memory.key i = false := not_or.1 (h 0 line rfl)
    rw [HasKey, not_not] at hseparator
    have hrest : ∀ k line, lines[k]? = some line → ¬ StopsAt memory (i + 1 + k) line := by
      intro k line hline
      rw [show i + 1 + k = i + (k + 1) by omega]
      exact h (k + 1) line hline
    rw [deserializeLines, if_neg (by omega), if_neg hkey, lastOfLines, lastOfLines]
    cases hfield : getSettingsField (lineKey line) with
    | none =>
      obtain ⟨hport, hinterface⟩ := getSettingsField_none hfield
      rw [portOfLine, if_neg fun h => hport h.1, interfaceOfLine, if_pos hinterface]
      exact ih settings (.inr rfl) hrest
    | some field =>
      obtain ⟨hmem, hkeyField⟩ := getSettingsField_mem hfield
      have hchanges := deserializeSetting_changes lib (memory.value i) settings hmem
          (lineValue line)
      rw [hkeyField] at hchanges
      rw [portOfLine, interfaceOfLine, ← hchanges.networkPort, ← hchanges.networkInterface]
      have herr' : ∀ err : ErrorCode, (if err ≠ .none then .incomplete else outErr) = .none ∨
          (if err ≠ .none then .incomplete else outErr) = .incomplete := by
        intro err
        split_ifs
        · exact .inr rfl
        · exact herr
      exact ih _ (herr' _) hrest

/-! ### Files -/

/-- **Where nothing is loaded, the destination is left alone.** -/
theorem loadServerSettings_refused (lib : Library) (random : RandomInts) (dest : Settings)
    (h : Refused memory file) : (loadServerSettings lib random memory dest file).2 = dest := by
  unfold loadServerSettings
  by_cases hmemory : memory.settings = false
  · rw [if_pos hmemory]
  rw [if_neg hmemory]
  cases file with
  | error err => rfl
  | ok text =>
    dsimp only
    by_cases hstops : ∃ k line, (splitLines text)[k]? = some line ∧ StopsAt memory (0 + k) line
    · rw [if_pos (deserializeLines_stops .none (createSettings random) hstops)]
    · simp only [Nat.zero_add] at hstops
      obtain ⟨hcopy, hinterface⟩ := (h.resolve_left hmemory).resolve_left hstops
      have hlines : ∀ k line, (splitLines text)[k]? = some line →
          ¬ StopsAt memory (0 + k) line := by
        intro k line hline hstop
        rw [Nat.zero_add] at hstop
        exact hstops ⟨k, line, hline, hstop⟩
      obtain ⟨herr, -, hfile⟩ := deserializeLines_applied (createSettings random) (.inl rfl) hlines
      have hfails : copySettings memory.networkInterface dest
          (constrainSettings (deserializeLines lib
          memory 0 (splitLines text) .none (createSettings random)).2).2 =
            (.memoryAllocation, dest) := by
        refine if_pos ?_
        rw [hcopy, Bool.not_false, Bool.and_true]
        exact (congrArg Option.isSome hfile).trans hinterface
      rw [if_neg fun h => herr.elim h.1 h.2, hfails]

/-- **Otherwise the destination gets the port of the file**, and keeps its password. -/
theorem loadServerSettings_applied (lib : Library) (random : RandomInts) (dest : Settings)
    {text : List UInt8} (h : ¬ Refused memory (.ok text)) :
    ((loadServerSettings lib random memory dest (.ok text)).1 = .none ∨
      (loadServerSettings lib random memory dest (.ok text)).1 = .incomplete) ∧
    (loadServerSettings lib random memory dest (.ok text)).2.password = dest.password ∧
    (loadServerSettings lib random memory dest (.ok text)).2.networkPort =
      filePort lib memory (splitLines text) := by
  obtain ⟨hmemory, hfile⟩ := not_or.1 h
  obtain ⟨hstops, hcopy⟩ := not_or.1 hfile
  have hlines : ∀ k line, (splitLines text)[k]? = some line → ¬ StopsAt memory (0 + k) line := by
    intro k line hline hstop
    rw [Nat.zero_add] at hstop
    exact hstops ⟨k, line, hline, hstop⟩
  obtain ⟨herr, hport, hinterface⟩ := deserializeLines_applied (createSettings random)
    (.inl rfl) hlines
  unfold loadServerSettings
  rw [if_neg hmemory]
  dsimp only
  rw [if_neg fun h => herr.elim h.1 h.2]
  revert herr hport hinterface
  generalize deserializeLines lib memory 0 (splitLines text) .none (createSettings random) = result
  obtain ⟨err, settings⟩ := result
  intro herr hport hinterface
  have hcopied : ¬ ((constrainSettings settings).2.networkInterface.isSome &&
      !memory.networkInterface) = true := by
    intro hfails
    rw [Bool.and_eq_true, Bool.not_eq_true'] at hfails
    exact hcopy ⟨hfails.2, (congrArg Option.isSome hinterface).symm.trans hfails.1⟩
  rw [copySettings, if_neg hcopied]
  refine ⟨?_, rfl, congrArg clampPort hport⟩
  cases (constrainSettings settings).1 with
  | true => exact .inr rfl
  | false => exact herr

/-! ### What is kept -/

/-- The standardised settings are not loaded, and an error other than `ERROR_INCOMPLETE` leaves
everything as it is. -/
structure KeepsStandardized (lib : Library) (random : RandomInts) (memory : Memory)
    (dest : Settings) (file : Except ErrorCode (List UInt8)) : Prop where
  password : (loadServerSettings lib random memory dest file).2.password = dest.password
  networkPort : (loadServerSettings lib random memory dest file).2.networkPort = dest.networkPort
  error : (loadServerSettings lib random memory dest file).1 ≠ .none →
    (loadServerSettings lib random memory dest file).1 ≠ .incomplete →
      (loadServerSettings lib random memory dest file).2 = dest

/-- The port to be loaded is the one that the destination has. -/
def SamePort (lib : Library) (memory : Memory) (dest : Settings) :
    Except ErrorCode (List UInt8) → Prop
  | .error _ => True
  | .ok text => filePort lib memory (splitLines text) = dest.networkPort

/-- **The standardised settings are kept iff nothing is loaded or the port is the same already.** -/
theorem keepsStandardized_iff (lib : Library) (random : RandomInts) (memory : Memory)
    (dest : Settings) (file : Except ErrorCode (List UInt8)) :
    KeepsStandardized lib random memory dest file ↔
      Refused memory file ∨ SamePort lib memory dest file := by
  by_cases hrefused : Refused memory file
  · have hsame := loadServerSettings_refused lib random dest hrefused
    refine iff_of_true ⟨?_, ?_, fun _ _ => hsame⟩ (.inl hrefused)
    · rw [hsame]
    · rw [hsame]
  · cases file with
    | error err => exact absurd (.inr trivial) hrefused
    | ok text =>
      obtain ⟨herr, hpassword, hport⟩ := loadServerSettings_applied lib random dest hrefused
      constructor
      · intro h
        exact .inr (hport.symm.trans h.networkPort)
      · intro h
        refine ⟨hpassword, hport.trans (h.resolve_left hrefused), fun hnone hincomplete => ?_⟩
        exact (herr.elim hnone hincomplete).elim

/-- With enough memory this is the loading of the settings as they are saved. -/
theorem loadServerSettings_enough (lib : Library) (random : RandomInts) (dest : Settings)
    (text : List UInt8) :
    loadServerSettings lib random .enough dest (.ok text) =
      XprcServer.loadServerSettings lib random dest (some text) := by
  have hset : ∀ settings field s, deserializeSetting lib true settings field s =
      XprcServer.deserializeSetting lib settings field s := by
    intro settings field s
    rw [deserializeSetting, XprcServer.deserializeSetting]
    cases field.type with
    | boolean get set => rfl
    | integer get set => rfl
    | string get set =>
      by_cases hnull : cString s = settingsSerializationNull <;> simp [hnull]
  have hlines : ∀ lines i outErr settings, deserializeLines lib .enough i lines outErr settings =
      XprcServer.deserializeLines lib lines outErr settings := by
    intro lines
    induction lines with
    | nil => exact fun _ _ _ => rfl
    | cons line lines ih =>
      intro i outErr settings
      have hkey : ¬ Memory.enough.key i = false := by simp [Memory.enough]
      rw [deserializeLines, XprcServer.deserializeLines, if_neg hkey, lineKey, lineValue, separator]
      dsimp only
      split_ifs
      · rfl
      · cases getSettingsField
          (line.take (strpos line settingsSerializationKeyValueSeparator 0).toNat) with
        | none => exact ih _ _ _
        | some field =>
          have hvalue : Memory.enough.value i = true := rfl
          dsimp only
          rw [hvalue, hset, ih]
  have hcopy : ∀ settings, copySettings true dest settings =
      XprcServer.copySettings dest settings false := fun settings =>
    if_neg (by simp)
  have hmemory : ¬ Memory.enough.settings = false := by simp [Memory.enough]
  have hnetworkInterface : Memory.enough.networkInterface = true := rfl
  unfold loadServerSettings XprcServer.loadServerSettings
  rw [if_neg hmemory, readLinesFromFile, Option.map_some]
  dsimp only
  rw [hlines, deserializeServerSettings, hnetworkInterface, hcopy]

/-- A file without a port replaces a port by the default. -/
theorem not_keepsStandardized_default :
    ¬ KeepsStandardized ⟨fun _ => 0, fun _ => none, fun _ => 0, fun _ _ => true⟩ exampleRandomInts
      .enough { defaultSettings with networkPort := 5000 } (.ok (bytes "auto_startup=true")) := by
  have hlines : splitLines (bytes "auto_startup=true") = [bytes "auto_startup=true"] := by decide
  have hkey : HasKey (bytes "auto_startup=true") := by
    rw [HasKey]
    decide
  have hrefused : ¬ Refused .enough (.ok (bytes "auto_startup=true")) := by
    rintro (h | ⟨i, line, hline, hstop⟩ | ⟨h, -⟩)
    · cases h
    · rw [hlines, List.getElem?_singleton] at hline
      split_ifs at hline
      obtain rfl := Option.some.inj hline
      exact hstop.elim (fun hstop => hstop hkey) Bool.noConfusion
    · cases h
  intro h
  have hport := (loadServerSettings_applied ⟨fun _ => 0, fun _ => none, fun _ => 0, fun _ _ => true⟩
    exampleRandomInts { defaultSettings with networkPort := 5000 } hrefused).2.2
  rw [h.networkPort, hlines] at hport
  exact absurd hport (by decide)

end SettingsFile

end XprcServer
