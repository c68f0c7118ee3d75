import XprcServer.Commands.DrciArrays
import XprcServer.Commands.Drmu
import XprcServer.Protocol.Encoding

/-!
# Requests of DRCI

`command_drci.c`: a client offers a dataref by its types, its name and, for arrays, its length,
which stand in a single parameter with colons between them.  The types are separated by commas, and
the search for the next comma does not end where the types do: it runs on into the name.

`Drci.readLength_hostable` : what is accepted can be hosted.
-/

namespace XprcServer

/-- `simple_types` -/
def simpleTypes : BitVec 32 := xplmTypeInt ||| xplmTypeFloat ||| xplmTypeDouble

/-- The fields of `command_drci_t` that `drci_create` reads from the request -/
structure DrciDescription where
  datarefName : List UInt8
  types : BitVec 32
  writePermission : UInt8
  echoMode : DrciEchoMode
  intconvMode : DrciIntconvMode
  arrayLength : ℤ
  deriving DecidableEq, Repr

namespace Drci

/-- `DRCI_COMMAND_VERSION` -/
def commandVersion : ℕ := 1

/-- `drci_supported_options` -/
def supportedOptions : List String :=
  ["echo", "intConv", "range", "rangeFit", "step", "stepFit", "writable"]

/-- `parse_permission` -/
def parsePermission (s : List UInt8) : Option UInt8 :=
  if s = bytes "all" then some permissionAll
  else if s = bytes "xprc" then some permissionXprc
  else if s = bytes "session" then some permissionSession
  else none

/-- `parse_echo_mode` -/
def parseEchoMode (s : List UInt8) : Option DrciEchoMode :=
  if s = bytes "all" then some .all
  else if s = bytes "other" then some .other
  else if s = bytes "xplane" then some .xplane
  else if s = bytes "none" then some .none
  else none

/-- `parse_intconv_mode` of an option that may be missing -/
def parseIntconvMode (s : Option (List UInt8)) : Option DrciIntconvMode :=
  match s with
  | none => some .notSet
  | some s =>
    if s = bytes "round" then some .round
    else if s = bytes "floor" then some .floor
    else if s = bytes "ceil" then some .ceil
    else none

/-- A message on the channel, if there is one, and what is returned -/
abbrev CreateError := Option String × ErrorCode

/-- A result that may be missing, with the message for that -/
def orReject {α : Type} (result : Option α) (message : String) : Except CreateError α :=
  match result with
  | some value => .ok value
  | none => .error (some message, .unspecific)

/-- The checks of the types and of the length of the array, as far as they go together -/
def checkTypes (types : BitVec 32) (arrlenLength : ℤ) : Option String :=
  let hasSimpleType := decide (types &&& simpleTypes ≠ 0)
  let hasArrayType := decide (types &&& arrayTypes ≠ 0)
  let hasBlobType := decide (types &&& xplmTypeData ≠ 0)
  if hasSimpleType && hasArrayType then
    some "combination of simple and array types is not supported"
  else if types = xplmTypeUnknown ∨ types &&& ~~~supportedTypes ≠ 0 then
    some "unknown or unsupported types"
  else if hasArrayType ∧ arrlenLength < 1 then some "undefined array length"
  else if ¬ hasArrayType ∧ 0 < arrlenLength then some "length can only be specified for array types"
  else if hasBlobType ∧ types &&& ~~~xplmTypeData ≠ 0 then
    some "blob cannot be combined with other types"
  else none

/-- The part of `drci_create` that reads the length of the array, which stands at `lengthText`.  The
types are checked before. -/
def readLength (lib : Library) (intconvMode : DrciIntconvMode) (types : BitVec 32)
    (arrlenLength : ℤ) (lengthText : List UInt8) : Except CreateError ℤ :=
  match checkTypes types arrlenLength with
  | some message => .error (some message, .unspecific)
  | none =>
    let arrayLength := if 0 < arrlenLength then atoi lib (cString lengthText) else -1
    if types &&& arrayTypes ≠ 0 ∧ arrayLength < 0 then
      .error (some "invalid array length", .unspecific)
    else if types &&& xplmTypeData ≠ 0 ∧ intconvMode ≠ .notSet then
      .error (some "intConv option is not allowed on blobs", .unspecific)
    else .ok arrayLength

/-- The part of `drci_create` that reads the dataref: its types, the length of the array, and its
name; `alloc` says whether there is memory for the name. -/
def readDataref (lib : Library) (alloc : Bool) (intconvMode : DrciIntconvMode)
    (parameter : List UInt8) :
    Except CreateError (BitVec 32 × ℤ × List UInt8) := do
  let offsetTypeSeparator := strposUnescaped parameter 58 0
  if offsetTypeSeparator < 1 then .error (some "dataref type must be specified", .unspecific)
  let offsetNameSeparator := strposUnescaped parameter 58 (offsetTypeSeparator + 1).toNat
  let arrlenLength := if 0 ≤ offsetNameSeparator then
      strlen parameter - offsetNameSeparator - 1 else -1
  let escapedNameLength :=
    if offsetNameSeparator < 0 then strlen parameter - offsetTypeSeparator - 1
    else offsetNameSeparator - offsetTypeSeparator - 1
  let types := parseTypes parameter offsetTypeSeparator
  let arrayLength ← readLength lib intconvMode types arrlenLength
    (parameter.drop (offsetNameSeparator + 1).toNat)
  match copyPartialUnescapedString alloc (parameter.drop (offsetTypeSeparator + 1).toNat)
      escapedNameLength with
  | none => .error (some "dataref name could not be copied", .memoryAllocation)
  | some name => pure (types, arrayLength, name)

/-- The part of `drci_create` that reads the request.  Without `ENABLE_DRCI_RANGE` and
`ENABLE_DRCI_STEP` there are neither ranges nor steps.  All that is left then is to set up the
arrays and to schedule the task. -/
def configure (lib : Library) (alloc : Bool) (version : ℕ) (request : Request) :
    Except CreateError DrciDescription := do
  if version ≠ commandVersion then .error (some "unexpected command version", .unspecific)
  if request.hasOnlyOptions supportedOptions = false then
    .error (some "unsupported options", .unspecific)
  if request.hasOption "range" then
    .error (some "range option is currently not supported", .unspecific)
  if request.hasOption "rangeFit" then
    .error (some "rangeFit option is currently not supported", .unspecific)
  if request.hasOption "step" then
    .error (some "step option is currently not supported", .unspecific)
  if request.hasOption "stepFit" then
    .error (some "stepFit option is currently not supported", .unspecific)
  let writePermission ← orReject (parsePermission (request.getOption "writable" "all"))
    "invalid mode for writable"
  let echoMode ← orReject (parseEchoMode (request.getOption "echo" "other")) "invalid mode for echo"
  let intconvMode ← orReject (parseIntconvMode
    (if request.hasOption "intConv" then some (request.getOption "intConv" "") else none))
    "invalid mode for intConv"
  match request.parameters with
  | [parameter] =>
    let (types, arrayLength, datarefName) ← readDataref lib alloc intconvMode parameter
    pure
      { datarefName := datarefName
        types := types
        writePermission := writePermission
        echoMode := echoMode
        intconvMode := if intconvMode = .notSet then .round else intconvMode
        arrayLength := arrayLength }
  | _ => .error (some "exactly one dataref has to be defined", .unspecific)

example : (configure .calm true 1 ⟨0, bytes "DRCI", [⟨bytes "echo", bytes "all"⟩],
    [bytes "float[],int[]:my/data\\:ref:3"]⟩).toOption =
      some ⟨bytes "my/data:ref", xplmTypeFloatArray ||| xplmTypeIntArray, permissionAll,
        .all, .round, 3⟩ := by
  decide +kernel

/-! ### What can be hosted -/

/-- The types of arrays of numbers -/
def numberArrayTypes : BitVec 32 := xplmTypeIntArray ||| xplmTypeFloatArray

/-- The types and the length of a dataref that can be hosted: a number, an array of numbers, or a
blob -/
inductive Hostable : BitVec 32 → ℤ → Prop
  | simple {types : BitVec 32} (some : types ≠ 0) (only : types &&& ~~~simpleTypes = 0) :
      Hostable types (-1)
  | numbers {types : BitVec 32} (length : ℕ) (some : types ≠ 0)
      (only : types &&& ~~~numberArrayTypes = 0) : Hostable types length
  | blob (length : ℕ) : Hostable xplmTypeData length

section

variable {types : BitVec 32}

/-- A set of types that is within another one -/
theorem and_eq_self {a : BitVec 32} (h : types &&& ~~~a = 0) : types &&& a = types := by
  have hsplit : types &&& (a ||| ~~~a) = types &&& a ||| 0 := by rw [BitVec.and_or_distrib_left, h]
  rw [show a ||| ~~~a = BitVec.allOnes 32 by ext; simp, BitVec.and_allOnes] at hsplit
  simpa using hsplit.symm

theorem and_eq_zero {a b : BitVec 32} (h : types &&& ~~~a = 0) (hdisjoint : a &&& b = 0) :
    types &&& b = 0 := by
  rw [← and_eq_self h, BitVec.and_assoc, hdisjoint]
  simp

/-- What can be hosted has one of the kinds of datarefs, and its length is given iff it is an
array. -/
theorem Hostable.kind {length : ℤ} (h : Hostable types length) :
    ¬ (types &&& simpleTypes ≠ 0 ∧ types &&& arrayTypes ≠ 0) ∧
      (types &&& xplmTypeData ≠ 0 → types &&& ~~~xplmTypeData = 0) ∧
      (types &&& arrayTypes = 0 ↔ length = -1) := by
  cases h with
  | simple hsome honly =>
    have harray : types &&& arrayTypes = 0 := and_eq_zero honly (by decide)
    have hdata : types &&& xplmTypeData = 0 := and_eq_zero honly (by decide)
    exact ⟨fun hmixed => hmixed.2 harray, fun hne => absurd hdata hne, by simp [harray]⟩
  | numbers n hsome honly =>
    have hsimple : types &&& simpleTypes = 0 := and_eq_zero honly (by decide)
    have hdata : types &&& xplmTypeData = 0 := and_eq_zero honly (by decide)
    have harray : types &&& arrayTypes ≠ 0 := by
      intro hnone
      have hall : types &&& (arrayTypes ||| ~~~numberArrayTypes) = 0 := by
        rw [BitVec.and_or_distrib_left, hnone, honly]
        rfl
      rw [show arrayTypes ||| ~~~numberArrayTypes = BitVec.allOnes 32 by decide,
        BitVec.and_allOnes] at hall
      exact hsome hall
    refine ⟨fun hmixed => hmixed.1 hsimple, fun hne => absurd hdata hne, ?_⟩
    simp only [harray, false_iff]
    omega
  | blob n =>
    refine ⟨by decide, fun _ => by decide, ?_⟩
    simp only [show xplmTypeData &&& arrayTypes ≠ 0 by decide, false_iff]
    omega

/-- There are six types, so that what is said of sets of them can be tried out. -/
theorem exists_ofNat (h : types &&& ~~~supportedTypes = 0) : ∃ n < 64,
    types = BitVec.ofNat 32 n := by
  refine ⟨types.toNat, ?_, by simp⟩
  rw [← and_eq_self h, BitVec.toNat_and]
  exact lt_of_le_of_lt Nat.and_le_right (by decide)

theorem kind_cases (hsome : types ≠ 0) (hknown : types &&& ~~~supportedTypes = 0)
    (hmixed : ¬ (types &&& simpleTypes ≠ 0 ∧ types &&& arrayTypes ≠ 0))
    (hblob : types &&& xplmTypeData ≠ 0 → types &&& ~~~xplmTypeData = 0) :
    (types &&& arrayTypes = 0 ∧ types &&& ~~~simpleTypes = 0) ∨
      (types &&& arrayTypes ≠ 0 ∧ (types &&& ~~~numberArrayTypes = 0 ∨ types = xplmTypeData)) := by
  have hall : ∀ n : Fin 64, BitVec.ofNat 32 n ≠ 0 →
      ¬ (BitVec.ofNat 32 n &&& simpleTypes ≠ 0 ∧ BitVec.ofNat 32 n &&& arrayTypes ≠ 0) →
      (BitVec.ofNat 32 n &&& xplmTypeData ≠ 0 → BitVec.ofNat 32 n &&& ~~~xplmTypeData = 0) →
      (BitVec.ofNat 32 n &&& arrayTypes = 0 ∧ BitVec.ofNat 32 n &&& ~~~simpleTypes = 0) ∨
        (BitVec.ofNat 32 n &&& arrayTypes ≠ 0 ∧
          (BitVec.ofNat 32 n &&& ~~~numberArrayTypes = 0 ∨ BitVec.ofNat 32 n = xplmTypeData)) := by
    decide +kernel
  obtain ⟨n, hn, rfl⟩ := exists_ofNat hknown
  exact hall ⟨n, hn⟩ hsome hmixed hblob

theorem checkTypes_eq_none {arrlenLength : ℤ} : checkTypes types arrlenLength = none ↔
    ¬ (types &&& simpleTypes ≠ 0 ∧ types &&& arrayTypes ≠ 0) ∧ types ≠ 0 ∧
      types &&& ~~~supportedTypes = 0 ∧ (types &&& arrayTypes ≠ 0 → 1 ≤ arrlenLength) ∧
      (types &&& arrayTypes = 0 → arrlenLength ≤ 0) ∧
      (types &&& xplmTypeData ≠ 0 → types &&& ~~~xplmTypeData = 0) := by
  unfold checkTypes
  simp only [Bool.and_eq_true, decide_eq_true_eq]
  split_ifs with hmixed hunknown hundefined hlength hblob
  · simp only [false_iff]
    tauto
  · simp only [false_iff, xplmTypeUnknown] at hunknown ⊢
    tauto
  · simp only [false_iff]
    rintro ⟨-, -, -, hone, -⟩
    have := hone hundefined.1
    omega
  · simp only [false_iff]
    rintro ⟨-, -, -, -, hzero, -⟩
    have := hzero (not_not.1 hlength.1)
    omega
  · simp only [false_iff]
    tauto
  · simp only [true_iff]
    rw [not_or, xplmTypeUnknown, not_not] at hunknown
    refine ⟨hmixed, hunknown.1, hunknown.2, fun harray => ?_, fun hno => ?_, fun hdata => ?_⟩
    · by_contra hlt
      exact hundefined ⟨harray, by omega⟩
    · by_contra hlt
      exact hlength ⟨not_not.2 hno, by omega⟩
    · by_contra hmore
      exact hblob ⟨hdata, hmore⟩

theorem readLength_ok_iff {lib : Library} {mode : DrciIntconvMode} {arrlenLength length : ℤ}
    {text : List UInt8} : readLength lib mode types arrlenLength text = .ok length ↔
      checkTypes types arrlenLength = none ∧
        length = (if 0 < arrlenLength then atoi lib (cString text) else -1) ∧
        (types &&& arrayTypes ≠ 0 → 0 ≤ length) ∧
        (types &&& xplmTypeData ≠ 0 → mode = .notSet) := by
  unfold readLength
  cases hchecked : checkTypes types arrlenLength with
  | some message => simp
  | none =>
    dsimp only
    generalize (if 0 < arrlenLength then atoi lib (cString text) else -1) = value
    split_ifs with hlength hmode
    · simp only [true_and, false_iff]
      rintro ⟨rfl, hpos, -⟩
      have := hpos hlength.1
      omega
    · simp only [true_and, false_iff]
      rintro ⟨-, -, hnot⟩
      exact hmode.2 (hnot hmode.1)
    · rw [Except.ok.injEq, eq_comm]
      refine ⟨fun heq => ⟨rfl, heq, fun harray => ?_, fun hdata => ?_⟩, fun h => h.2.1⟩
      · by_contra hneg
        exact hlength ⟨harray, by omega⟩
      · by_contra hset
        exact hmode ⟨hdata, hset⟩

theorem readLength_hostable {lib : Library} {mode : DrciIntconvMode} {arrlenLength length : ℤ}
    {text : List UInt8} (h : readLength lib mode types arrlenLength text = .ok length) :
    Hostable types length := by
  obtain ⟨hchecked, hlength, hpos, -⟩ := readLength_ok_iff.1 h
  obtain ⟨hmixed, hsome, hknown, -, hshorter, hblob⟩ := checkTypes_eq_none.1 hchecked
  rcases kind_cases hsome hknown hmixed hblob with ⟨hno, honly⟩ | ⟨harray, hkind⟩
  · rw [hlength, if_neg (by have := hshorter hno; omega)]
    exact .simple hsome honly
  · obtain ⟨n, rfl⟩ := Int.eq_ofNat_of_zero_le (hpos harray)
    rcases hkind with honly | rfl
    · exact .numbers n hsome honly
    · exact .blob n

end

end Drci

end XprcServer
