import XprcServer.Commands.DrciRequests

/-!
# Offers of DRCI

A client that offers a dataref writes its types, its escaped name and, for an array, its length into
the parameter of the request, and the permission, the echo mode and the conversion of numbers into
options.  `drci_create` finds the parts again by the unescaped colons between them.  A comma in the
name is taken for one between types, so that a dataref with such a name cannot be offered, although
it could be hosted.

* `Drci.readDataref_ok_iff` : when the parameter is read as it was written;
* `Drci.drci_reads_offer` : which offers are accepted, and as what.
-/

namespace XprcServer

namespace Drci

theorem map_eq_ok_iff {ε α β : Type} {x : Except ε α} {f : α → β} {b : β} :
    x.map f = .ok b ↔ ∃ a, x = .ok a ∧ b = f a := by
  cases x with
  | error err => simp [Except.map]
  | ok a => simp [Except.map, eq_comm]

section

variable {lib : Library} {types : BitVec 32} {name : List UInt8} {arrayLength : Option ℕ}

/-! ### The parameter -/

/-- The length of an array as it is written -/
def lengthText : Option ℕ → List UInt8
  | none => []
  | some n => 58 :: decimal n

/-- The length of an array as it is read -/
def lengthOf : Option ℕ → ℤ
  | none => -1
  | some n => n

/-- A dataref as it is written: its types, its name, and the length if it is an array -/
def datarefText (types : BitVec 32) (name : List UInt8) (arrayLength : Option ℕ) : List UInt8 :=
  encodedText types ++ 58 :: (escapeName name ++ lengthText arrayLength)

theorem flagNames_plain : ∀ isInt isFloat isDouble isFloatArray isIntArray isBlob,
    58 ∉ [typeSeparator].intercalate
      (flagNames isInt isFloat isDouble isFloatArray isIntArray isBlob) ∧
      escapeChar ∉ [typeSeparator].intercalate
        (flagNames isInt isFloat isDouble isFloatArray isIntArray isBlob) := by
  decide +kernel

theorem passed_encodedText (types : BitVec 32) : Passed 58 (encodedText types) :=
  .of_not_mem (flagNames_plain _ _ _ _ _ _).1 (flagNames_plain _ _ _ _ _ _).2

theorem zero_not_mem_lengthText (arrayLength : Option ℕ) : 0 ∉ lengthText arrayLength := by
  cases arrayLength with
  | none => exact List.not_mem_nil
  | some n =>
    have hdigits : (0 : UInt8) ∉ decimal n := fun h => absurd (isDigit_decimal h) (by decide)
    simp [lengthText, hdigits]

theorem zero_not_mem_behind (h : 0 ∉ name) :
    0 ∉ 58 :: (escapeName name ++ lengthText arrayLength) := by
  simp [zero_not_mem_escapeName h, zero_not_mem_lengthText]

theorem zero_not_mem_datarefText (h : 0 ∉ name) : 0 ∉ datarefText types name arrayLength := by
  rw [datarefText, List.mem_append, not_or]
  exact ⟨flagNames_nul _ _ _ _ _ _, zero_not_mem_behind h⟩

/-- There is a comma behind the types iff there is one in the name. -/
theorem separator_mem_iff :
    typeSeparator ∈ 58 :: (escapeName name ++ lengthText arrayLength) ↔ typeSeparator ∈ name := by
  have hlength : typeSeparator ∉ lengthText arrayLength := by
    cases arrayLength with
    | none => exact List.not_mem_nil
    | some n =>
      have hdigits : typeSeparator ∉ decimal n := separator_not_mem_decimal n
      simp [lengthText, hdigits, show typeSeparator ≠ 58 by decide]
  have hname : typeSeparator ∈ escapeName name ↔ typeSeparator ∈ name := by
    rw [escapeName, List.mem_flatMap]
    constructor
    · rintro ⟨ch, hch, hmem⟩
      split_ifs at hmem
      · rcases List.mem_pair.1 hmem with heq | rfl
        · exact absurd heq (by decide)
        · exact hch
      · rwa [List.mem_singleton.1 hmem]
    · intro hmem
      exact ⟨_, hmem, by decide⟩
  rw [List.mem_cons, List.mem_append, hname]
  simp [hlength, show typeSeparator ≠ 58 by decide]

/-- The types are read as they were written unless there is a comma in the name; then they are
unknown. -/
theorem parseTypes_datarefText (hnames : encodedNames types ≠ []) (hname : 0 ∉ name) :
    parseTypes (datarefText types name arrayLength) (encodedText types).length =
      if typeSeparator ∈ name then xplmTypeUnknown else types &&& supportedTypes := by
  split_ifs with hcomma
  · exact parseTypes_encodedText_comma hnames (zero_not_mem_behind hname) rfl
      (separator_mem_iff.2 hcomma)
  · exact parseTypes_encodedText hnames (zero_not_mem_behind hname) (mt separator_mem_iff.1 hcomma)

theorem strposUnescaped_types (hname : 0 ∉ name) :
    strposUnescaped (datarefText types name arrayLength) 58 0 = (encodedText types).length := by
  have hfound := @strposUnescaped_eq 58 (by decide) _
      (@zero_not_mem_datarefText types _ arrayLength hname)
    [] (encodedText types) (escapeName name ++ lengthText arrayLength) rfl rfl
      (passed_encodedText types)
  rwa [List.length_nil, Nat.zero_add] at hfound

theorem closed_types (types : BitVec 32) : (encodedText types ++ [58]).foldl escapes false =
    false := by
  rw [List.foldl_append, (passed_encodedText types).closed]
  rfl

theorem strposUnescaped_length (hname : 0 ∉ name) (n : ℕ) :
    strposUnescaped (datarefText types name (some n)) 58 ((encodedText types).length + 1) =
      ((encodedText types).length + 1 + (escapeName name).length : ℕ) := by
  have hfound := @strposUnescaped_eq 58 (by decide) _
      (@zero_not_mem_datarefText types _ (some n) hname)
    (encodedText types ++ [58]) (escapeName name) (decimal n) (by simp [datarefText, lengthText])
    (closed_types types) (passed_escapeName (.inl rfl) name)
  rwa [List.length_append, List.length_singleton] at hfound

theorem strposUnescaped_noLength (hname : 0 ∉ name) :
    strposUnescaped (datarefText types name none) 58 ((encodedText types).length + 1) = -1 := by
  have hmissing := @strposUnescaped_eq_neg_one 58 (by decide) _
      (@zero_not_mem_datarefText types _ none hname)
    (encodedText types ++ [58]) (escapeName name) (by simp [datarefText, lengthText])
    (closed_types types) (passed_escapeName (.inl rfl) name)
  rwa [List.length_append, List.length_singleton] at hmissing

theorem copy_name : copyPartialUnescapedString true
    ((datarefText types name arrayLength).drop ((encodedText types).length + 1))
      (escapeName name).length = some name := by
  have hdrop : (datarefText types name arrayLength).drop ((encodedText types).length + 1) =
      escapeName name ++ lengthText arrayLength := by
    rw [datarefText, ← List.drop_drop, List.drop_left' rfl]
    rfl
  rw [copyPartialUnescapedString, if_pos rfl, hdrop, Int.toNat_natCast, List.take_left' rfl,
    unescapeLoop_escapeName]

theorem strlen_datarefText (hname : 0 ∉ name) : strlen (datarefText types name arrayLength) =
    (encodedText types).length + 1 + (escapeName name).length +
      (lengthText arrayLength).length := by
  rw [strlen, cString_eq_self (zero_not_mem_datarefText hname), datarefText, List.length_append,
    List.length_cons, List.length_append]
  omega

theorem readLength_noLength (lib : Library) (mode : DrciIntconvMode) (types : BitVec 32)
    (text : List UInt8) : readLength lib mode types (-1) text =
      readLength lib mode types (-1) [] := by
  simp only [readLength, show ¬ (0 : ℤ) < -1 by decide, if_false]

/-- What was written is read in three parts. -/
theorem readDataref_text (mode : DrciIntconvMode) (hnames : encodedNames types ≠ [])
    (hname : 0 ∉ name) {read : BitVec 32}
    (hread : parseTypes (datarefText types name arrayLength) (encodedText types).length = read) :
    readDataref lib true mode (datarefText types name arrayLength) =
      (readLength lib mode read ((lengthText arrayLength).length - 1)
        (lengthText arrayLength).tail).map fun length => (read, length, name) := by
  have hpos := encodedText_length_pos hnames
  have hstart : (((encodedText types).length : ℤ) + 1).toNat = (encodedText types).length + 1 :=
    by omega
  have hcopy := @copy_name types name arrayLength
  unfold readDataref
  simp only [bind, Except.bind, pure, Except.pure, strposUnescaped_types hname, hstart, hread,
    strlen_datarefText hname]
  rw [if_neg (by omega)]
  cases arrayLength with
  | none =>
    have hname' : ((encodedText types).length + 1 + (escapeName name).length +
        (lengthText none).length : ℕ) -
        ((encodedText types).length : ℤ) - 1 = (escapeName name).length := by
      simp only [lengthText, List.length_nil]
      omega
    simp only [strposUnescaped_noLength hname, show ¬ (0 : ℤ) ≤ -1 by decide,
      show (-1 : ℤ) < 0 by decide, if_false, if_true, hname', hcopy]
    rw [readLength_noLength, show ((lengthText none).length : ℤ) - 1 = -1 by rfl,
      show (lengthText none).tail = [] by rfl]
    cases readLength lib mode read (-1) [] <;> rfl
  | some n =>
    have hname' : ((encodedText types).length + 1 + (escapeName name).length : ℕ) -
        ((encodedText types).length : ℤ) - 1 = (escapeName name).length := by omega
    have hlength : (((encodedText types).length + 1 + (escapeName name).length +
        (lengthText (some n)).length : ℕ) : ℤ) -
          ((encodedText types).length + 1 + (escapeName name).length : ℕ) - 1 =
        (lengthText (some n)).length - 1 := by omega
    have hbehind : (datarefText types name (some n)).drop
        (((encodedText types).length + 1 + (escapeName name).length : ℕ) + 1 : ℤ).toNat =
          (lengthText (some n)).tail := by
      have htext : datarefText types name (some n) =
          encodedText types ++ 58 :: (escapeName name ++ [58]) ++ decimal n := by
        simp [datarefText, lengthText]
      rw [htext,
        List.drop_left'
          (by simp only [List.length_append, List.length_cons, List.length_nil]; omega)]
      rfl
    simp only [strposUnescaped_length hname, Int.natCast_nonneg,
      Int.not_lt.2 (Int.natCast_nonneg _), if_true, if_false, hname', hlength, hbehind, hcopy]
    cases readLength lib mode read ((lengthText (some n)).length - 1)
      (lengthText (some n)).tail <;> rfl

/-- The length is read as it was written, if the dataref can be hosted. -/
theorem readLength_text {mode : DrciIntconvMode} {length : ℤ} (hsome : types ≠ 0)
    (hknown : types &&& ~~~supportedTypes = 0)
    (hlength : ∀ n, arrayLength = some n → n < 2 ^ 31) :
    readLength lib mode types ((lengthText arrayLength).length - 1) (lengthText arrayLength).tail =
      .ok length ↔
      (Hostable types (lengthOf arrayLength) ∧ (types &&& xplmTypeData ≠ 0 → mode = .notSet)) ∧
        length = lengthOf arrayLength := by
  have hvalue : (if 0 < ((lengthText arrayLength).length : ℤ) - 1 then
      atoi lib (cString (lengthText arrayLength).tail) else -1) = lengthOf arrayLength := by
    cases arrayLength with
    | none => rfl
    | some n =>
      have hdigits := decimal_length_pos n
      rw [if_pos (by simp only [lengthText, List.length_cons]; omega)]
      exact atoi_header (hlength n rfl)
  constructor
  · intro hok
    have hhost := readLength_hostable hok
    obtain ⟨-, hlen, -, hblob⟩ := readLength_ok_iff.1 hok
    rw [hvalue] at hlen
    rw [hlen] at hhost
    exact ⟨⟨hhost, hblob⟩, hlen⟩
  · rintro ⟨⟨hhost, hblob⟩, rfl⟩
    obtain ⟨hmixed, hdata, harray⟩ := hhost.kind
    refine readLength_ok_iff.2 ⟨checkTypes_eq_none.2 ⟨hmixed, hsome, hknown, ?_, ?_, hdata⟩,
      hvalue.symm, ?_, hblob⟩
    all_goals
      simp only [ne_eq, harray]
      cases arrayLength with
      | none => simp [lengthText, lengthOf]
      | some n =>
        have hdigits := decimal_length_pos n
        simp only [lengthText, lengthOf, List.length_cons]
        omega

theorem readDataref_ok_iff {mode : DrciIntconvMode} {read : BitVec 32 × ℤ × List UInt8}
    (hsome : types ≠ 0) (hknown : types &&& ~~~supportedTypes = 0) (hname : 0 ∉ name)
    (hlength : ∀ n, arrayLength = some n → n < 2 ^ 31) :
    readDataref lib true mode (datarefText types name arrayLength) = .ok read ↔
      (Hostable types (lengthOf arrayLength) ∧ typeSeparator ∉ name ∧
        (types &&& xplmTypeData ≠ 0 → mode = .notSet)) ∧
          read = (types, lengthOf arrayLength, name) := by
  have hsupported := and_eq_self hknown
  have hnames : encodedNames types ≠ [] := encodedNames_ne_nil (by rw [hsupported]; exact hsome)
  rw [readDataref_text mode hnames hname (parseTypes_datarefText hnames hname),
    hsupported, map_eq_ok_iff]
  by_cases hcomma : typeSeparator ∈ name
  · -- the types are unknown then
    rw [if_pos hcomma]
    constructor
    · rintro ⟨length, hok, -⟩
      exact absurd rfl (checkTypes_eq_none.1 (readLength_ok_iff.1 hok).1).2.1
    · rintro ⟨⟨-, hfree, -⟩, -⟩
      exact absurd hcomma hfree
  · rw [if_neg hcomma]
    constructor
    · rintro ⟨length, hok, rfl⟩
      obtain ⟨⟨hhost, hblob⟩, rfl⟩ := (readLength_text hsome hknown hlength).1 hok
      exact ⟨⟨hhost, hcomma, hblob⟩, rfl⟩
    · rintro ⟨⟨hhost, -, hblob⟩, rfl⟩
      exact ⟨_, (readLength_text hsome hknown hlength).2 ⟨⟨hhost, hblob⟩, rfl⟩, rfl⟩

/-! ### The options -/

/-- How a permission is written -/
def permissionText (permission : UInt8) : String :=
  if permission = permissionAll then "all" else if permission = permissionXprc then
    "xprc" else "session"

/-- How an echo mode is written -/
def echoText : DrciEchoMode → String
  | .all => "all"
  | .other => "other"
  | .xplane => "xplane"
  | .none => "none"

/-- How a conversion of numbers is asked for -/
def intconvOptions : DrciIntconvMode → List CommandOption
  | .notSet => []
  | .round => [⟨bytes "intConv", bytes "round"⟩]
  | .floor => [⟨bytes "intConv", bytes "floor"⟩]
  | .ceil => [⟨bytes "intConv", bytes "ceil"⟩]

/-- The options of an offer -/
def optionsOf (permission : UInt8) (echoMode : DrciEchoMode) (intconvMode : DrciIntconvMode) :
    List CommandOption :=
  ⟨bytes "writable", bytes (permissionText permission)⟩ ::
    ⟨bytes "echo", bytes (echoText echoMode)⟩ ::
    intconvOptions intconvMode

/-- The options of a request are read as they were written. -/
@[mk_iff] structure OptionsRead (request : Request) (permission : UInt8) (echoMode : DrciEchoMode)
    (intconvMode : DrciIntconvMode) : Prop where
  supported : request.hasOnlyOptions supportedOptions = true
  range : request.hasOption "range" = false
  rangeFit : request.hasOption "rangeFit" = false
  step : request.hasOption "step" = false
  stepFit : request.hasOption "stepFit" = false
  writable : parsePermission (request.getOption "writable" "all") = some permission
  echo : parseEchoMode (request.getOption "echo" "other") = some echoMode
  intConv : parseIntconvMode
    (if request.hasOption "intConv" then some (request.getOption "intConv" "") else none) =
      some intconvMode

instance (request : Request) (permission : UInt8) (echoMode : DrciEchoMode)
    (intconvMode : DrciIntconvMode) :
    Decidable (OptionsRead request permission echoMode intconvMode) :=
  decidable_of_iff' _ (optionsRead_iff request permission echoMode intconvMode)

theorem optionsOf_read {permission : UInt8} (h : isValidWritePermission permission = true)
    (echoMode : DrciEchoMode) (intconvMode : DrciIntconvMode) (id : ChannelId) (name : List UInt8)
    (parameters : List (List UInt8)) :
    OptionsRead ⟨id, name, optionsOf permission echoMode intconvMode,
      parameters⟩ permission echoMode
      intconvMode := by
  have hall : ∀ permission ∈ [permissionSession, permissionXprc, permissionAll],
      ∀ echoMode ∈ [DrciEchoMode.all, .other, .xplane, .none],
        ∀ intconvMode ∈ [DrciIntconvMode.notSet, .round, .floor, .ceil],
          OptionsRead ⟨0, [], optionsOf permission echoMode intconvMode, []⟩ permission echoMode
            intconvMode := by
    decide +kernel
  have hpermission : permission ∈ [permissionSession, permissionXprc, permissionAll] := by
    simpa [isValidWritePermission, or_assoc] using h
  have hread := hall permission hpermission echoMode (by cases echoMode <;> decide) intconvMode
    (by cases intconvMode <;> decide)
  -- the options do not depend on the rest of the request
  exact ⟨hread.supported, hread.range, hread.rangeFit, hread.step, hread.stepFit,
    hread.writable, hread.echo, hread.intConv⟩

/-- What is left to be read is the dataref. -/
theorem configure_eq {request : Request} {permission : UInt8} {echoMode : DrciEchoMode}
    {intconvMode : DrciIntconvMode} {parameter : List UInt8} (alloc : Bool)
    (h : OptionsRead request permission echoMode intconvMode)
    (hparameters : request.parameters = [parameter]) :
    configure lib alloc commandVersion request =
      (readDataref lib alloc intconvMode parameter).map fun read =>
        { datarefName := read.2.2
          types := read.1
          writePermission := permission
          echoMode := echoMode
          intconvMode := if intconvMode = .notSet then .round else intconvMode
          arrayLength := read.2.1 } := by
  rw [configure, h.supported, h.range, h.rangeFit, h.step, h.stepFit, h.writable, h.echo, h.intConv,
    hparameters]
  simp only [bind, Except.bind, pure, Except.pure, orReject, ne_eq, not_true_eq_false,
    reduceCtorEq, if_false, Bool.false_eq_true]
  cases readDataref lib alloc intconvMode parameter <;> rfl

/-! ### Offers -/

/-- A dataref that a client may offer; the length of an array is an `int`. -/
structure DatarefOffer where
  types : BitVec 32
  name : List UInt8
  arrayLength : Option ℕ
  writePermission : UInt8
  echoMode : DrciEchoMode
  intconvMode : DrciIntconvMode
  typed : types ≠ 0
  supported : types &&& ~~~supportedTypes = 0
  terminated : 0 ∉ name
  bounded : ∀ n, arrayLength = some n → n < 2 ^ 31
  permitted : isValidWritePermission writePermission = true

/-- The request for it -/
def DatarefOffer.request (offer : DatarefOffer) (id : ChannelId) : Request where
  channelId := id
  commandName := bytes "DRCI"
  options := optionsOf offer.writePermission offer.echoMode offer.intconvMode
  parameters := [datarefText offer.types offer.name offer.arrayLength]

/-- What is hosted then -/
def DatarefOffer.description (offer : DatarefOffer) : DrciDescription where
  datarefName := offer.name
  types := offer.types
  writePermission := offer.writePermission
  echoMode := offer.echoMode
  intconvMode := if offer.intconvMode = .notSet then .round else offer.intconvMode
  arrayLength := lengthOf offer.arrayLength

/-- **An offer is accepted iff it can be hosted, there is no comma in the name**, and no conversion
of numbers is asked for blobs.  It is read as it was written then. -/
theorem drci_reads_offer (lib : Library) (offer : DatarefOffer) (id : ChannelId)
    (d : DrciDescription) :
    configure lib true commandVersion (offer.request id) = .ok d ↔
      (Hostable offer.types (lengthOf offer.arrayLength) ∧ typeSeparator ∉ offer.name ∧
        (offer.types &&& xplmTypeData ≠ 0 → offer.intconvMode = .notSet)) ∧
          d = offer.description := by
  have hoptions : OptionsRead (offer.request id) offer.writePermission offer.echoMode
      offer.intconvMode :=
    optionsOf_read offer.permitted offer.echoMode offer.intconvMode id _ _
  rw [configure_eq true hoptions rfl, map_eq_ok_iff]
  constructor
  · rintro ⟨read, hread, rfl⟩
    obtain ⟨haccept, rfl⟩ :=
      (readDataref_ok_iff offer.typed offer.supported offer.terminated offer.bounded).1 hread
    exact ⟨haccept, rfl⟩
  · rintro ⟨haccept, rfl⟩
    exact ⟨_, (readDataref_ok_iff offer.typed offer.supported offer.terminated offer.bounded).2
      ⟨haccept, rfl⟩, rfl⟩

/-- Three integers, with a colon in the name -/
def threeIntegers : DatarefOffer where
  types := xplmTypeIntArray
  name := bytes "left:right"
  arrayLength := some 3
  writePermission := permissionAll
  echoMode := .all
  intconvMode := .notSet
  typed := by decide
  supported := by decide
  terminated := by decide
  bounded n hn := by
    cases hn
    decide
  permitted := by decide

theorem drci_reads_offer_integers :
    configure .calm true commandVersion (threeIntegers.request 0) = .ok threeIntegers.description :=
  (drci_reads_offer .calm threeIntegers 0 threeIntegers.description).2
    ⟨⟨.numbers 3 (by decide) (by decide), by decide, fun _ => rfl⟩, rfl⟩

example : (configure .calm true 1 ⟨0, bytes "DRCI", [], [bytes "int:left,right"]⟩).toOption =
    none := by
  decide +kernel

end

end Drci

end XprcServer
