import XprcServer.Arrays
import XprcServer.Protocol.Encoding
import XprcServer.Session.Answers

/-!
# DRLS without parameters, the command that lists all datarefs

`command_drls_unspecific_impl.c`: the command works in four stages, of which the first and the third
run in a flight loop and the others behind it.  It counts the datarefs, allocates two arrays, has
X-Plane fill them, and sends what was found.  The number of datarefs may have changed in between.

Work on memory outside of an array is not defined in C; it is noted in `outside`, and the stage ends
there.

* `DrlsUnspecific.count_ends`, `prepare_ends`, `retrieve_ends`, `submit_ends` : what the stages do;
* `drls_lists_iff` : the command does its work unless there are more datarefs than were counted
  first.
-/

namespace XprcServer

open Lib Arrays

/-- `XPLMDataRefInfo_t` -/
structure DatarefInfo where
  structSize : ℤ
  name : Option (List UInt8)
  types : BitVec 32
  writable : ℤ
  deriving DecidableEq

/-- Zeroed memory -/
def DatarefInfo.zeroed : DatarefInfo := ⟨0, none, 0, 0⟩

/-- What the types of X-Plane look like in memory -/
structure XplmLayout where
  /-- `sizeof(XPLMDataRef)` -/
  datarefSize : ℕ
  /-- `sizeof(XPLMDataRefInfo_t)` -/
  infoSize : ℕ
  /-- The `XPLMDataRef` that stands where an `int` was written over the start of one -/
  overwrite : ℤ → ℕ → ℕ
  datarefSize_le : 4 ≤ datarefSize
  infoSize_le : 4 ≤ infoSize
  infoSize_lt : infoSize < 2 ^ 31

/-- X-Plane in one flight loop -/
structure XplmDatarefs where
  /-- `XPLMCountDataRefs` -/
  count : ℤ
  /-- What `XPLMGetDataRefsByIndex` writes for an index -/
  byIndex : ℕ → ℕ
  /-- What `XPLMGetDataRefInfo` leaves in the memory it is given -/
  info : ℕ → DatarefInfo → DatarefInfo

/-- `drls_unspecific_stage_t` -/
inductive DrlsStage where
  | count
  | prepare
  | retrieve
  | submit
  deriving DecidableEq, Repr

/-- `command_drls_t` for `TYPE_UNSPECIFIC` -/
structure CommandDrls where
  channelId : ChannelId
  failed : Bool
  done : Bool
  timestamp : ℤ
  datarefs : Option (Arrays.DynamicArray ℕ)
  datarefInfos : Option (Arrays.DynamicArray DatarefInfo)
  count : ℤ
  numPrepared : ℤ
  stage : DrlsStage
  /-- What `XPLMGetDataRefInfo` found in the memory it was given, call by call -/
  asked : List DatarefInfo
  /-- Memory outside of an array was accessed. -/
  outside : Bool

/-- The command after `drls_unspecific_create` -/
def CommandDrls.created (id : ChannelId) : CommandDrls where
  channelId := id
  failed := false
  done := false
  timestamp := 0
  datarefs := none
  datarefInfos := none
  count := 0
  numPrepared := 0
  stage := .count
  asked := []
  outside := false

/-- One turn of the command: a flight loop, or the post-processing behind one -/
inductive DrlsTurn where
  | flightloop (xplane : XplmDatarefs)
  | post

namespace DrlsUnspecific

open Session

/-- Code of the command -/
abbrev DrlsM := M CommandDrls

/-! ### Memory -/

/-- Change the command. -/
def modify (f : CommandDrls → CommandDrls) : DrlsM Unit :=
  Logged.update fun w => { w with memory := f w.memory }

/-- The command -/
def get : DrlsM CommandDrls := Logged.read World.memory

/-- Work on memory, if it stays inside of the arrays -/
def inMemory {α : Type} (work : Access α) (next : α → DrlsM Unit) : DrlsM Unit :=
  match work with
  | none => modify fun command => { command with outside := true }
  | some result => next result

/-- The command fails; the client is told about it if there is a text. -/
def fail (text : Option String) : DrlsM Unit := do
  match text with
  | none => modify fun command => { command with failed := true }
  | some text => do
    let command ← get
    let _ ← errorChannel command.channelId currentTimeReference (some (bytes text))
    modify fun command => { command with failed := true }

/-- An `int` is written to the start of the item at a place; `store` is what this does to the
item. -/
def storeInt {α : Type} (store : α → α) (arr : Arrays.DynamicArray α) (place : ℕ) :
    Access (Arrays.DynamicArray α) :=
  if place * arr.itemSize + 4 ≤ arr.data.length * arr.itemSize then
    some { arr with data := arr.data.modify place store }
  else none

/-- The loop of `format_dataref_infos` over `n` items from `i` on; `store` is what writing
`structSize` does to an item of the array. -/
def formatDatarefInfos {α : Type} (store : α → α) : ℕ → ℤ → Arrays.DynamicArray α →
    Access (Bool × Arrays.DynamicArray α)
  | 0, _, arr => some (true, arr)
  | n + 1, i, arr =>
    match getPointer arr i with
    | none => some (false, arr)
    | some place => do
      let arr ← storeInt store arr place
      formatDatarefInfos store n (i + 1) arr

/-- `xp_dataref->structSize = sizeof(XPLMDataRefInfo_t)` -/
def setStructSize (L : XplmLayout) (info : DatarefInfo) : DatarefInfo :=
  { info with structSize := L.infoSize }

/-! ### The stages -/

/-- `dynamic_array_set_length`; `store` keeps the array, and `text` is for a failure. -/
def setArrayLength {α : Type} (zero : α) (arr : Arrays.DynamicArray α) (length : ℤ) (text : String)
    (store : Arrays.DynamicArray α → CommandDrls → CommandDrls)
    (next : Arrays.DynamicArray α → DrlsM Unit) : DrlsM Unit := do
  let allocated ← Session.allocate
  inMemory (setLength zero allocated arr length) fun r => do
    modify (store r.2)
    if r.1 then next r.2 else fail (some text)

/-- The part of `process_prepare` about one array -/
def prepareArray {α : Type} (zero : α) (itemSize : ℕ) (count : ℤ) (createText lengthText : String)
    (store : Arrays.DynamicArray α → CommandDrls → CommandDrls)
    (next : Arrays.DynamicArray α → DrlsM Unit) : DrlsM Unit := do
  let container ← Session.allocate
  let allocated ← Session.allocate
  inMemory (createDynamicArray zero allocated container itemSize count) fun created =>
    match created with
    | none => fail (some createText)
    | some arr => do
      modify (store arr)
      setArrayLength zero arr count lengthText store next

/-- The field `datarefs` -/
def storeDatarefs (arr : Arrays.DynamicArray ℕ) (command : CommandDrls) : CommandDrls :=
  { command with datarefs := some arr }

/-- The field `dataref_infos` -/
def storeInfos (arr : Arrays.DynamicArray DatarefInfo) (command : CommandDrls) : CommandDrls :=
  { command with datarefInfos := some arr }

/-- `process_count` -/
def processCount (xplane : XplmDatarefs) : DrlsM Unit :=
  modify fun command => { command with count := xplane.count, stage := .prepare }

/-- `process_prepare` -/
def processPrepare (L : XplmLayout) : DrlsM Unit := do
  let command ← get
  if command.count ≤ 0 then fail (some "X-Plane API reported zero datarefs")
  else
    prepareArray 0 L.datarefSize command.count "failed to allocate dataref array"
      "failed to set dataref array length" storeDatarefs fun _ =>
    prepareArray .zeroed L.infoSize command.count "failed to allocate info array"
      "failed to set info array length" storeInfos fun infos =>
    inMemory (formatDatarefInfos (setStructSize L) command.count.toNat 0 infos) fun r => do
      modify (storeInfos r.2)
      if r.1 then
        modify fun command => { command with numPrepared := command.count, stage := .retrieve }
      else fail (some "failed to format info array")

/-- The loop of `process_retrieve` over `n` datarefs from `i` on -/
def retrieveLoop (xplane : XplmDatarefs) (datarefs : Arrays.DynamicArray ℕ) :
    ℕ → ℤ → Arrays.DynamicArray DatarefInfo → DrlsM Unit
  | 0, _, _ => modify fun command => { command with stage := .submit }
  | n + 1, i, infos =>
    match getPointer datarefs i with
    | none => fail none
    | some datarefPlace =>
      match getPointer infos i with
      | none => fail none
      | some infoPlace =>
        inMemory datarefs.data[datarefPlace]? fun dataref =>
        inMemory infos.data[infoPlace]? fun info => do
          let infos := { infos with data := infos.data.set infoPlace (xplane.info dataref info) }
          modify fun command => { command with
            asked := command.asked ++ [info]
            datarefInfos := some infos }
          retrieveLoop xplane datarefs n (i + 1) infos

/-- `XPLMGetDataRefsByIndex` from index 0 on -/
def getDatarefsByIndex (xplane : XplmDatarefs) (count : ℤ) (arr : Arrays.DynamicArray ℕ) :
    Access (Arrays.DynamicArray ℕ) := do
  let data ← memcpyItems arr.data 0 ((List.range count.toNat).map xplane.byIndex) 0 count.toNat
  return { arr with data := data }

/-- The end of `process_retrieve`: X-Plane fills the arrays. -/
def fill (xplane : XplmDatarefs) (count : ℤ) (infos : Arrays.DynamicArray DatarefInfo)
    (datarefs : Arrays.DynamicArray ℕ) : DrlsM Unit :=
  inMemory (getDatarefsByIndex xplane count datarefs) fun datarefs => do
    modify (storeDatarefs datarefs)
    retrieveLoop xplane datarefs count.toNat 0 infos

/-- `process_retrieve` behind the check of the count -/
def retrieve (L : XplmLayout) (xplane : XplmDatarefs) : DrlsM Unit := do
  let command ← get
  match command.datarefs, command.datarefInfos with
  | some datarefs, some infos =>
    setArrayLength 0 datarefs command.count "failed to resize datarefs array"
      storeDatarefs fun datarefs =>
    setArrayLength .zeroed infos command.count "failed to resize info array" storeInfos fun infos =>
    if command.numPrepared < command.count then
      -- it is the array of the datarefs that is formatted here
      inMemory (formatDatarefInfos (L.overwrite L.infoSize)
        (command.count - command.numPrepared).toNat command.numPrepared datarefs) fun r => do
        modify (storeDatarefs r.2)
        if r.1 then fill xplane command.count infos r.2
        else fail (some "failed to format additional info array entries")
    else fill xplane command.count infos datarefs
  | some datarefs, none =>
    setArrayLength 0 datarefs command.count "failed to resize datarefs array" storeDatarefs fun _ =>
      fail (some "failed to resize info array")
  | none, _ => fail (some "failed to resize datarefs array")

/-- `process_retrieve` -/
def processRetrieve (L : XplmLayout) (xplane : XplmDatarefs) : DrlsM Unit := do
  let timestamp ← millisSinceReference
  modify fun command => { command with timestamp := timestamp }
  if timestamp < 0 then fail none
  else do
    modify fun command => { command with count := xplane.count }
    if xplane.count ≤ 0 then fail (some "X-Plane API reported zero datarefs")
    else retrieve L xplane

/-- The first loop of `process_submit`, over `n` items from `i` on: the number of those with a name,
or the text of the failure -/
def countValid (L : XplmLayout) (infos : Arrays.DynamicArray DatarefInfo) :
    ℕ → ℤ → ℕ → Access (Except (Option String) ℕ)
  | 0, _, numValid => some (.ok numValid)
  | n + 1, i, numValid =>
    match getPointer infos i with
    | none => some (.error none)
    | some place => do
      let info ← infos.data[place]?
      if info.structSize ≠ L.infoSize then
        return .error (some "X-Plane API corrupted datarefs array")
      else countValid L infos n (i + 1) (if info.name.isSome then numValid + 1 else numValid)

/-- The message about a dataref -/
def infoText (types : List UInt8) (writable : ℤ) (name : List UInt8) : List UInt8 :=
  cString types ++ 59 :: bytes (if writable ≠ 0 then "rw" else "ro") ++ 59 :: cString name

/-- The message is the last one or not. -/
def sendInfo (complete : Bool) (id : ChannelId) (timestamp : ℤ)
    (out : List UInt8) : DrlsM ErrorCode :=
  if complete then finishChannel id timestamp (some out) else
    continueChannel id timestamp (some out)

/-- What `process_submit` does about a dataref with a name; `complete` says that it is the last
one. -/
def submitInfo (info : DatarefInfo) (name : List UInt8) (complete : Bool) (next : DrlsM Unit) :
    DrlsM Unit := do
  let allocated ← Session.allocate
  inMemory (encodeTypes allocated info.types) fun outTypes =>
    match outTypes with
    | none => fail (some "failed to encode types")
    | some outTypes => do
      if ← Session.allocate then do
        let command ← get
        let err ← sendInfo complete command.channelId command.timestamp
          (infoText outTypes info.writable name)
        if err ≠ .none then fail (some "failed to send results") else next
      else fail (some "failed to encode results")

/-- The second loop of `process_submit`, over `n` items from `i` on -/
def submitLoop (infos : Arrays.DynamicArray DatarefInfo) (numValid : ℕ) : ℕ → ℤ → ℕ → DrlsM Unit
  | 0, _, _ => pure ()
  | n + 1, i, numSent =>
    match getPointer infos i with
    | none => fail none
    | some place =>
      inMemory infos.data[place]? fun info =>
        match info.name with
        | none => submitLoop infos numValid n (i + 1) numSent
        | some name =>
          submitInfo info name (numValid = numSent + 1)
            (submitLoop infos numValid n (i + 1) (numSent + 1))

/-- `process_submit` behind its first loop -/
def submitValid (infos : Arrays.DynamicArray DatarefInfo) (count : ℕ) :
    Except (Option String) ℕ → DrlsM Unit
  | .error text => fail text
  | .ok numValid =>
    if numValid ≤ 0 then fail (some "X-Plane API did not list any datarefs")
    else submitLoop infos numValid count 0 0

/-- `process_submit` -/
def processSubmit (L : XplmLayout) : DrlsM Unit := do
  modify fun command => { command with done := true }
  let command ← get
  match command.datarefInfos with
  | none =>
    if 0 < command.count then fail none
    else fail (some "X-Plane API did not list any datarefs")
  | some infos =>
    inMemory (countValid L infos command.count.toNat 0 0) (submitValid infos command.count.toNat)

/-- What is done at a turn in a stage -/
def processStage (L : XplmLayout) : DrlsTurn → DrlsStage → DrlsM Unit
  | .flightloop xplane, .count => processCount xplane
  | .flightloop xplane, .retrieve => processRetrieve L xplane
  | .post, .prepare => processPrepare L
  | .post, .submit => processSubmit L
  | _, _ => pure ()

/-- `drls_unspecific_process_flightloop` and `drls_unspecific_process_post` -/
def process (L : XplmLayout) (turn : DrlsTurn) : DrlsM Unit := do
  let command ← get
  if command.failed || command.done then pure () else processStage L turn command.stage

/-- Turn after turn -/
def processAll (L : XplmLayout) : List DrlsTurn → DrlsM Unit
  | [] => pure ()
  | turn :: turns => do
    process L turn
    processAll L turns

/-! ### Memory that is worked on -/

section

variable {α : Type} {arr : Arrays.DynamicArray α} {n : ℕ} {i : ℤ}

theorem getPointer_of_lt (hi : 0 ≤ i) (hlt : i < arr.length) : getPointer arr i = some i.toNat :=
  if_neg (by omega)

theorem storeInt_of_lt (store : α → α) (hsize : 4 ≤ arr.itemSize) {place : ℕ}
    (h : place < arr.data.length) :
    storeInt store arr place = some { arr with data := arr.data.modify place store } := by
  refine if_pos ?_
  calc place * arr.itemSize + 4 ≤ place * arr.itemSize + arr.itemSize := Nat.add_le_add_left hsize _
    _ = (place + 1) * arr.itemSize := (Nat.succ_mul _ _).symm
    _ ≤ arr.data.length * arr.itemSize := Nat.mul_le_mul_right _ h

/-- What `format_dataref_infos` does: it writes to every item of the range. -/
theorem formatDatarefInfos_eq (store : α → α) (hsize : 4 ≤ arr.itemSize) (hi : 0 ≤ i)
    (hlength : i + n ≤ arr.length) (hdata : arr.length ≤ arr.data.length) :
    ∃ data, formatDatarefInfos store n i arr = some (true, { arr with data := data }) ∧
      data.length = arr.data.length ∧
      ∀ k : ℕ, data[k]? = if i ≤ k ∧ k < i + n then arr.data[k]?.map store else arr.data[k]? := by
  induction n generalizing i arr with
  | zero =>
    refine ⟨arr.data, rfl, rfl, fun k => ?_⟩
    rw [if_neg (by omega)]
  | succ n ih =>
    rw [formatDatarefInfos, getPointer_of_lt hi (by omega)]
    dsimp only
    rw [storeInt_of_lt store hsize (show i.toNat < arr.data.length by omega)]
    have hmodify : (arr.data.modify i.toNat store).length = arr.data.length := List.length_modify ..
    obtain ⟨data, heq, hlen, hentries⟩ :=
      @ih { arr with data := arr.data.modify i.toNat store } (i + 1) hsize (by omega)
        (by dsimp only; omega) (by dsimp only; omega)
    refine ⟨data, heq, hlen.trans hmodify, fun k => ?_⟩
    rw [hentries]
    dsimp only
    rw [List.getElem?_modify]
    by_cases hk : i.toNat = k
    · rw [if_neg (by omega), if_pos (by omega)]
      simp [hk]
    · by_cases hin : i + 1 ≤ k ∧ k < i + 1 + n
      · rw [if_pos hin, if_pos (by omega)]
        simp [hk]
      · rw [if_neg hin, if_neg (by omega)]
        simp [hk]

end

/-! ### The first two stages -/

end DrlsUnspecific

/-- The state in which the command is another one -/
def World.remember (w : World CommandDrls) (command : CommandDrls) : World CommandDrls :=
  { w with memory := command }

namespace DrlsUnspecific

open Session

section

variable {w w' : World CommandDrls} {command command' : CommandDrls} {α : Type}
  {Q : Unit → World CommandDrls → Prop} {L : XplmLayout} {xplane : XplmDatarefs}

theorem obliging_remember (h : w.Obliging) (command : CommandDrls) :
    (w.remember command).Obliging :=
  ⟨h.alloc, h.session, h.send, h.clock, h.reference⟩

/-- The command has become another one, and nothing else happened. -/
def Becomes (w : World CommandDrls) (command : CommandDrls) (w' : World CommandDrls) : Prop :=
  (w.remember command).Ticks w'

theorem Becomes.memory (h : Becomes w command w') : w'.memory = command := by
  obtain ⟨n, -, rfl⟩ := h
  rfl

theorem Becomes.obliging (h : Becomes w command w') (hw : w.Obliging) : w'.Obliging :=
  (obliging_remember hw command).ticks h

theorem Becomes.channels (h : Becomes w command w') : w'.channels = w.channels := by
  obtain ⟨n, -, rfl⟩ := h
  rfl

theorem Becomes.wire (h : Becomes w command w') : w'.wire = w.wire := by
  obtain ⟨n, -, rfl⟩ := h
  rfl

theorem Becomes.trans {w'' : World CommandDrls} (h : Becomes w command w')
    (h' : Becomes w' command' w'') : Becomes w command' w'' := by
  obtain ⟨n, hn, rfl⟩ := h
  obtain ⟨n', hn', rfl⟩ := h'
  exact ⟨n', Nat.le_trans hn hn', rfl⟩

theorem ends_get {f : CommandDrls → DrlsM Unit} : Ends (get >>= f) w Q ↔ Ends (f w.memory) w Q :=
  Iff.rfl

theorem ends_modify {f : CommandDrls → CommandDrls} {p : DrlsM Unit} :
    Ends (modify f >>= fun _ => p) w Q ↔ Ends p (w.remember (f w.memory)) Q := Iff.rfl

theorem setArrayLength_ends (h : w.Obliging) {zero : α} {arr arr' : Arrays.DynamicArray α}
    {length : ℤ} (text : String) (store : Arrays.DynamicArray α → CommandDrls → CommandDrls)
    {next : Arrays.DynamicArray α → DrlsM Unit}
    (hset : setLength zero true arr length = some (true, arr'))
    (hnext : ∀ w', Becomes w (store arr' w.memory) w' → Ends (next arr') w' Q) :
    Ends (setArrayLength zero arr length text store next) w Q := by
  refine (allocate_gives h).ends fun w' ht => ?_
  obtain ⟨n, hn, rfl⟩ := ht
  rw [hset]
  exact hnext _ ⟨n, hn, rfl⟩

theorem prepareArray_ends (h : w.Obliging) {zero : α} {itemSize : ℕ} {count : ℤ}
    (createText lengthText : String) (store : Arrays.DynamicArray α → CommandDrls → CommandDrls)
    {next : Arrays.DynamicArray α → DrlsM Unit} (hsize : 1 ≤ itemSize) (hcount : 0 < count)
    (hstore : ∀ arr arr' command, store arr' (store arr command) = store arr' command)
    (hnext : ∀ w', Becomes w
        (store ⟨count, count, itemSize, List.replicate count.toNat zero⟩ w.memory) w' →
      Ends (next ⟨count, count, itemSize, List.replicate count.toNat zero⟩) w' Q) :
    Ends (prepareArray zero itemSize count createText lengthText store next) w Q := by
  refine (allocate_gives h).ends fun w₁ h₁ => (allocate_gives (h.ticks h₁)).ends fun w₂ h₂ => ?_
  obtain ⟨n₁, hn₁, rfl⟩ := h₁
  obtain ⟨n₂, hn₂, rfl⟩ := h₂
  rw [createDynamicArray_of_pos hsize hcount]
  refine setArrayLength_ends (obliging_remember (h.ticks ⟨n₂, Nat.le_trans hn₁ hn₂, rfl⟩) _)
    lengthText store (setLength_of_le (by omega) (Int.le_refl count)) fun w' hw' => hnext w' ?_
  obtain ⟨n, hn, rfl⟩ := hw'
  refine ⟨n, Nat.le_trans hn₁ (Nat.le_trans hn₂ hn), ?_⟩
  exact congrArg (fun command => (w.remember command).atTick n) (hstore _ _ _)

theorem count_ends (xplane : XplmDatarefs) (w : World CommandDrls) :
    Ends (processCount xplane) w fun _ w' =>
      Becomes w { w.memory with count := xplane.count, stage := .prepare } w' :=
  ⟨w.tick, Nat.le_refl _, rfl⟩

/-- The command after the second stage -/
def prepared (L : XplmLayout) (command : CommandDrls) : CommandDrls :=
  { command with
    datarefs := some ⟨command.count, command.count, L.datarefSize,
      List.replicate command.count.toNat 0⟩
    datarefInfos := some ⟨command.count, command.count, L.infoSize,
      List.replicate command.count.toNat (setStructSize L .zeroed)⟩
    numPrepared := command.count
    stage := .retrieve }

/-- The second stage formats all items. -/
theorem prepare_ends (L : XplmLayout) (h : w.Obliging) (hcount : 0 < w.memory.count) :
    Ends (processPrepare L) w fun _ w' => Becomes w (prepared L w.memory) w' := by
  have hdatarefSize := L.datarefSize_le
  have hinfoSize := L.infoSize_le
  rw [processPrepare, ends_get, if_neg (by omega)]
  refine prepareArray_ends h _ _ storeDatarefs (by omega) hcount (fun _ _ _ => rfl) fun w₁ h₁ => ?_
  refine prepareArray_ends (h₁.obliging h) _ _ storeInfos (by omega) hcount (fun _ _ _ => rfl)
    fun w₂ h₂ => ?_
  rw [h₁.memory] at h₂
  have h₁₂ := h₁.trans h₂
  let infos : Arrays.DynamicArray DatarefInfo := ⟨w.memory.count, w.memory.count, L.infoSize,
    List.replicate w.memory.count.toNat .zeroed⟩
  obtain ⟨data, hformat, hlength, hentries⟩ := @formatDatarefInfos_eq _ infos w.memory.count.toNat 0
    (setStructSize L) hinfoSize (Int.le_refl 0) (by dsimp only [infos]; omega) (by simp [infos])
  have hdata : data = List.replicate w.memory.count.toNat (setStructSize L .zeroed) := by
    refine List.ext_getElem? fun k => ?_
    rw [hentries, List.getElem?_replicate, List.getElem?_replicate]
    by_cases hk : k < w.memory.count.toNat
    · rw [if_pos (by omega), if_pos hk, if_pos hk]
      rfl
    · rw [if_neg (by omega), if_neg hk, if_neg hk]
  rw [hformat, hdata]
  obtain ⟨n, hn, rfl⟩ := h₁₂
  exact ⟨n, hn, rfl⟩

/-! ### The third stage -/

/-- The loop has X-Plane fill the items from `i` on, and notes what X-Plane found there. -/
theorem retrieveLoop_ends (xplane : XplmDatarefs) {datarefs : Arrays.DynamicArray ℕ}
    {infos : Arrays.DynamicArray DatarefInfo} {n i : ℕ}
    (hinfos : w.memory.datarefInfos = some infos)
    (hlength : ((i + n : ℕ) : ℤ) = datarefs.length) (hlength' : datarefs.length = infos.length)
    (hdata : infos.length ≤ infos.data.length)
    (hdatarefs : ∀ k : ℕ, k < i + n → datarefs.data[k]? = some (xplane.byIndex k)) :
    Ends (retrieveLoop xplane datarefs n i infos) w fun _ w' => ∃ data,
      data.length = infos.data.length ∧
      (∀ k, data[k]? = if i ≤ k ∧ k < i + n then infos.data[k]?.map (xplane.info (xplane.byIndex k))
        else infos.data[k]?) ∧
      Becomes w { w.memory with
        asked := w.memory.asked ++ (infos.data.drop i).take n
        datarefInfos := some { infos with data := data }
        stage := .submit } w' := by
  induction n generalizing i infos w with
  | zero =>
    refine ⟨infos.data, rfl, fun k => ?_, ?_⟩
    · rw [if_neg (by omega)]
    · rw [List.take_zero, List.append_nil, ← hinfos]
      exact ⟨w.tick, Nat.le_refl _, rfl⟩
  | succ n ih =>
    have hi : i < infos.data.length := by omega
    rw [retrieveLoop, getPointer_of_lt (by omega) (by omega),
      getPointer_of_lt (by omega) (by omega)]
    dsimp only
    rw [Int.toNat_natCast, hdatarefs i (by omega), List.getElem?_eq_getElem hi]
    let filled : Arrays.DynamicArray DatarefInfo :=
      { infos with data := infos.data.set i (xplane.info (xplane.byIndex i) infos.data[i]) }
    have hstep := @ih (w.remember { w.memory with
        asked := w.memory.asked ++ [infos.data[i]]
        datarefInfos := some filled }) filled (i + 1) rfl (by rw [← hlength]; omega) hlength'
      (by simpa [filled] using hdata) (fun k hk => hdatarefs k (by omega))
    rw [Int.natCast_add, Int.natCast_one] at hstep
    obtain ⟨data, hdataLength, hentries, hbecomes⟩ := hstep
    refine ⟨data, by simpa [filled] using hdataLength, fun k => ?_, ?_⟩
    · rw [hentries]
      dsimp only [filled]
      rw [List.getElem?_set]
      by_cases hk : i = k
      · subst hk
        rw [if_neg (by omega), if_pos rfl, if_pos hi, if_pos (by omega),
          List.getElem?_eq_getElem hi]
        rfl
      · rw [if_neg hk]
        by_cases hin : i + 1 ≤ k ∧ k < i + 1 + n
        · rw [if_pos hin, if_pos (by omega)]
        · rw [if_neg hin, if_neg (by omega)]
    · have hrest : ((filled.data.drop (i + 1)).take n) = (infos.data.drop (i + 1)).take n := by
        dsimp only [filled]
        rw [List.drop_set_of_lt (by omega)]
      have hasked : w.memory.asked ++ [infos.data[i]] ++ (filled.data.drop (i + 1)).take n =
          w.memory.asked ++ (infos.data.drop i).take (n + 1) := by
        rw [hrest, List.append_assoc, List.drop_eq_getElem_cons hi, List.take_succ_cons]
        rfl
      obtain ⟨m, hm, hstate⟩ := hbecomes
      refine ⟨m, hm, hstate.trans ?_⟩
      rw [← hasked]
      rfl

/-- What X-Plane is given for the dataref `k` if `c` items were formatted -/
def given (L : XplmLayout) (c k : ℕ) : DatarefInfo :=
  if k < c then setStructSize L .zeroed else .zeroed

/-- The command after the third stage, at which X-Plane counted `c'` datarefs, and `c` were
expected -/
structure Retrieved (L : XplmLayout) (xplane : XplmDatarefs) (c c' : ℕ)
    (before command : CommandDrls) :
    Prop where
  channelId : command.channelId = before.channelId
  failed : command.failed = false
  done : command.done = false
  outside : command.outside = false
  stage : command.stage = .submit
  timestamp : 0 ≤ command.timestamp
  count : command.count = c'
  asked : command.asked = before.asked ++ (List.range c').map (given L c)
  infos : ∃ infos, command.datarefInfos = some infos ∧ infos.length = c' ∧
    infos.data.take c' = (List.range c').map fun k => xplane.info (xplane.byIndex k) (given L c k)

/-- X-Plane fills the arrays. -/
theorem fill_ends (L : XplmLayout) (xplane : XplmDatarefs) {c c' : ℕ}
    {datarefs : Arrays.DynamicArray ℕ} {infos : Arrays.DynamicArray DatarefInfo}
    (hfailed : w.memory.failed = false) (hdone : w.memory.done = false)
    (houtside : w.memory.outside = false) (htimestamp : 0 ≤ w.memory.timestamp)
    (hcount : w.memory.count = c') (hinfos : w.memory.datarefInfos = some infos)
    (hlength : datarefs.length = c') (hlength' : infos.length = c')
    (hdata : c' ≤ datarefs.data.length)
    (hgiven : ∀ k, k < c' → infos.data[k]? = some (given L c k)) :
    Ends (fill xplane c' infos datarefs) w fun _ w' =>
      ∃ command, Retrieved L xplane c c' w.memory command ∧ Becomes w command w' := by
  have hcopy : getDatarefsByIndex xplane c' datarefs = some { datarefs with
      data := (List.range c').map xplane.byIndex ++ datarefs.data.drop c' } := by
    rw [getDatarefsByIndex, Int.toNat_natCast, memcpyItems, if_pos (by simpa using hdata)]
    simp
  rw [fill, hcopy]
  refine ends_modify.2 ?_
  rw [Int.toNat_natCast]
  let filled : Arrays.DynamicArray ℕ :=
    { datarefs with data := (List.range c').map xplane.byIndex ++ datarefs.data.drop c' }
  have hrange : ∀ k, k < 0 + c' → filled.data[k]? = some (xplane.byIndex k) := by
    intro k hk
    dsimp only [filled]
    rw [List.getElem?_append_left (by simpa using hk), List.getElem?_map,
      List.getElem?_range (by omega)]
    rfl
  have hinfosData : infos.length ≤ infos.data.length := by
    rw [hlength', Int.ofNat_le]
    by_contra hlt
    have := hgiven infos.data.length (by omega)
    rw [List.getElem?_eq_none (Nat.le_refl _)] at this
    cases this
  obtain ⟨data, hdataLength, hentries, hbecomes⟩ := retrieveLoop_ends xplane
    (w := w.remember (storeDatarefs filled w.memory)) hinfos
    (show ((0 + c' : ℕ) : ℤ) = filled.length by rw [Nat.zero_add]; exact hlength.symm)
    (hlength.trans hlength'.symm) hinfosData hrange
  refine ⟨_, ?_, hbecomes⟩
  refine ⟨rfl, hfailed, hdone, houtside, rfl, htimestamp, hcount, ?_, _, rfl, hlength', ?_⟩
  · change w.memory.asked ++ (infos.data.drop 0).take c' = _
    rw [List.drop_zero]
    congr 1
    refine List.ext_getElem? fun k => ?_
    rw [List.getElem?_take, List.getElem?_map]
    by_cases hk : k < c'
    · rw [if_pos hk, hgiven k hk, List.getElem?_range hk]
      rfl
    · rw [if_neg hk, List.getElem?_eq_none (by simpa using hk)]
      rfl
  · refine List.ext_getElem? fun k => ?_
    dsimp only
    rw [List.getElem?_take, List.getElem?_map]
    by_cases hk : k < c'
    · rw [if_pos hk, hentries, if_pos (by omega), hgiven k hk, List.getElem?_range hk]
      rfl
    · rw [if_neg hk, List.getElem?_eq_none (by simpa using hk)]
      rfl

theorem setLength_prepared (zero x : α) (size : ℕ) {c c' : ℤ} (hc : 0 < c) (hc' : 0 < c') :
    ∃ arr : Arrays.DynamicArray α,
      setLength zero true ⟨c, c, size, List.replicate c.toNat x⟩ c' = some (true, arr) ∧
      arr.length = c' ∧ arr.itemSize = size ∧ c' ≤ arr.data.length ∧
      ∀ k : ℕ, k < c' → arr.data[k]? = some (if k < c.toNat then x else zero) := by
  by_cases hle : c' ≤ c
  · refine ⟨_, setLength_of_le (by omega) hle, rfl, rfl, by simpa using by omega, fun k hk => ?_⟩
    dsimp only
    rw [List.getElem?_replicate, if_pos (by omega), if_pos (by omega)]
  · have hlength : (List.replicate c.toNat x).length = c := by
      rw [List.length_replicate]
      omega
    refine ⟨_, setLength_of_lt hlength (by dsimp only; omega), rfl, rfl, ?_, fun k hk => ?_⟩
    · dsimp only
      rw [List.length_append, List.length_replicate, List.length_replicate]
      omega
    · dsimp only
      rw [List.length_replicate]
      by_cases hk' : k < c.toNat
      · rw [List.getElem?_append_left (by simpa using hk'), List.getElem?_replicate,
          if_pos hk', if_pos hk']
      · rw [List.getElem?_append_right (by simpa using hk'), List.getElem?_replicate,
          List.length_replicate, if_pos (by omega), if_neg hk']

theorem retrieve_filled {before : CommandDrls} {now : ℤ} (h : w.Obliging)
    (hmemory : w.memory = { prepared L before with timestamp := now, count := xplane.count })
    (hfailed : before.failed = false) (hdone : before.done = false)
    (houtside : before.outside = false) (hnow : 0 ≤ now) (hcount : 0 < before.count)
    (hpos : 0 < xplane.count) :
    Ends (retrieve L xplane) w fun _ w' => ∃ command,
      Retrieved L xplane before.count.toNat xplane.count.toNat before command ∧
      Becomes w command w' := by
  have hnatCount : ((xplane.count.toNat : ℕ) : ℤ) = xplane.count := Int.toNat_of_nonneg (by omega)
  obtain ⟨datarefs, hset, hlength, hsize, hdata, -⟩ :=
    setLength_prepared 0 0 L.datarefSize hcount hpos
  obtain ⟨infos, hset', hlength', -, -, hentries⟩ :=
    setLength_prepared .zeroed (setStructSize L .zeroed) L.infoSize hcount hpos
  -- whatever the array of the datarefs has in it is overwritten
  have hfinish : ∀ (datarefs : Arrays.DynamicArray ℕ) (w' : World CommandDrls),
      datarefs.length = xplane.count → xplane.count ≤ datarefs.data.length →
      (∃ d, Becomes w { w.memory with datarefs := some d, datarefInfos := some infos } w') →
      Ends (fill xplane xplane.count infos datarefs) w' fun _ w' => ∃ command,
        Retrieved L xplane before.count.toNat xplane.count.toNat before command ∧
          Becomes w command w' := by
    rintro datarefs w' hlength hdata ⟨d, hbecomes⟩
    have hw' := hbecomes.memory
    rw [hmemory] at hw'
    rw [← hnatCount] at hlength hlength' hdata
    obtain ⟨command, hretrieved, hend⟩ := fill_ends L xplane (w := w')
      (c := before.count.toNat) (by rw [hw']; exact hfailed)
      (by rw [hw']; exact hdone) (by rw [hw']; exact houtside) (by rw [hw']; exact hnow)
      (by rw [hw']; exact hnatCount.symm) (by rw [hw']) hlength hlength' (by omega)
      (fun k hk => hentries k (by omega))
    rw [hnatCount] at hend
    refine ⟨command, ?_, hbecomes.trans hend⟩
    rw [hw'] at hretrieved
    exact ⟨hretrieved.channelId, hretrieved.failed, hretrieved.done, hretrieved.outside,
      hretrieved.stage, hretrieved.timestamp, hretrieved.count, hretrieved.asked, hretrieved.infos⟩
  have hdatarefs : w.memory.datarefs = some ⟨before.count, before.count, L.datarefSize,
      List.replicate before.count.toNat 0⟩ := congrArg CommandDrls.datarefs hmemory
  have hinfos : w.memory.datarefInfos = some ⟨before.count, before.count, L.infoSize,
      List.replicate before.count.toNat (setStructSize L .zeroed)⟩ :=
    congrArg CommandDrls.datarefInfos hmemory
  have hnewCount : w.memory.count = xplane.count := congrArg CommandDrls.count hmemory
  have hprepared : w.memory.numPrepared = before.count := congrArg CommandDrls.numPrepared hmemory
  rw [retrieve, ends_get, hdatarefs, hinfos, hnewCount, hprepared]
  dsimp only
  refine setArrayLength_ends h _ storeDatarefs hset fun w₁ h₁ => ?_
  refine setArrayLength_ends (h₁.obliging h) _ storeInfos hset' fun w₂ h₂ => ?_
  rw [h₁.memory] at h₂
  have h₁₂ := h₁.trans h₂
  by_cases hgrown : before.count < xplane.count
  · rw [if_pos hgrown]
    obtain ⟨data, hformat, hformatLength, -⟩ := @formatDatarefInfos_eq _ datarefs
      (xplane.count - before.count).toNat before.count (L.overwrite L.infoSize)
      (by rw [hsize]; exact L.datarefSize_le) (by omega) (by omega) (by omega)
    rw [hformat]
    have hmodified : Becomes w₂ (storeDatarefs { datarefs with data := data } w₂.memory)
        (w₂.remember (storeDatarefs { datarefs with data := data } w₂.memory)) :=
      ⟨_, Nat.le_refl _, rfl⟩
    have hall := h₁₂.trans hmodified
    rw [h₂.memory] at hall
    have hdata' : xplane.count ≤ data.length := by rw [hformatLength]; exact hdata
    exact ends_modify.2 (hfinish { datarefs with data := data } _ hlength hdata'
      ⟨{ datarefs with data := data }, h₂.memory ▸ hall⟩)
  · rw [if_neg hgrown]
    exact hfinish _ _ hlength hdata ⟨_, h₁₂⟩

theorem retrieve_ends (xplane : XplmDatarefs) {before : CommandDrls} (h : w.Obliging)
    (hmemory : w.memory = prepared L before)
    (hfailed : before.failed = false) (hdone : before.done = false)
    (houtside : before.outside = false) (hcount : 0 < before.count) (hpos : 0 < xplane.count) :
    Ends (processRetrieve L xplane) w fun _ w' => ∃ command,
      Retrieved L xplane before.count.toNat xplane.count.toNat before command ∧
      Becomes w command w' := by
  obtain ⟨now, hnow, hgives⟩ := millisSinceReference_gives h
  refine hgives.ends fun w₁ h₁ => ends_modify.2 ?_
  rw [if_neg (Int.not_lt.2 hnow)]
  refine ends_modify.2 ?_
  rw [if_neg (Int.not_le.2 hpos)]
  obtain ⟨n, hn, rfl⟩ := h₁
  obtain ⟨command, hretrieved, hend⟩ := retrieve_filled
    (w := w.remember { w.memory with timestamp := now, count := xplane.count } |>.atTick n)
    ((obliging_remember h { w.memory with timestamp := now, count := xplane.count }).ticks
      ⟨n, hn, rfl⟩)
    (congrArg (fun m : CommandDrls => { m with timestamp := now, count := xplane.count }) hmemory)
    hfailed hdone houtside hnow hcount hpos
  obtain ⟨n', hn', hstate⟩ := hend
  exact ⟨command, hretrieved, n', Nat.le_trans hn hn', hstate⟩

/-! ### The last stage -/

/-- The items that have a name, with it -/
def named (infos : List DatarefInfo) : List (DatarefInfo × List UInt8) :=
  infos.filterMap fun info => info.name.map (info, ·)

/-- The message about an item -/
def datarefText (item : DatarefInfo × List UInt8) : List UInt8 :=
  encodedText item.1.types ++ 59 :: bytes (if item.1.writable ≠ 0 then "rw" else "ro") ++
    59 :: cString item.2

/-- The lines about the items, of which the last one closes the channel -/
def listLines (channel : Channel) (timestamp : ℤ) :
    List (DatarefInfo × List UInt8) → List (List UInt8)
  | [] => []
  | [item] => [channelLine channel .close timestamp (some (datarefText item))]
  | item :: items =>
    channelLine channel .continues timestamp (some (datarefText item)) ::
      listLines channel timestamp items

variable {infos : Arrays.DynamicArray DatarefInfo} {n i : ℕ} {channel : Channel}

theorem drop_take_succ {data : List α} (hi : i < data.length) :
    (data.drop i).take (n + 1) = data[i] :: (data.drop (i + 1)).take n := by
  rw [List.drop_eq_getElem_cons hi, List.take_succ_cons]

theorem named_cons (info : DatarefInfo) (rest : List DatarefInfo) :
    named (info :: rest) = (info.name.map (info, ·)).toList ++ named rest := by
  rw [named, List.filterMap_cons]
  cases info.name <;> rfl

/-- The first loop counts the names if all items are as they should be. -/
theorem countValid_eq (hlength : ((i + n : ℕ) : ℤ) = infos.length)
    (hdata : infos.length ≤ infos.data.length)
    (hsize : ∀ info ∈ (infos.data.drop i).take n, info.structSize = L.infoSize) (numValid : ℕ) :
    countValid L infos n i numValid =
      some (.ok (numValid + (named ((infos.data.drop i).take n)).length)) := by
  induction n generalizing i numValid with
  | zero => rfl
  | succ n ih =>
    have hi : i < infos.data.length := by omega
    rw [drop_take_succ hi] at hsize ⊢
    rw [List.forall_mem_cons] at hsize
    rw [countValid, getPointer_of_lt (by omega) (by omega)]
    dsimp only
    rw [Int.toNat_natCast, List.getElem?_eq_getElem hi]
    have hrest := ih (by rw [← hlength]; omega) hsize.2
      (if infos.data[i].name.isSome then numValid + 1 else numValid)
    rw [Int.natCast_add, Int.natCast_one] at hrest
    simp only [Option.bind_eq_bind, Option.bind_some, ne_eq, hsize.1, not_true_eq_false, if_false]
    rw [hrest, named_cons]
    cases hname : infos.data[i].name with
    | none => simp
    | some name => simp [Nat.add_assoc, Nat.add_comm]

/-- It fails if one is not. -/
theorem countValid_corrupted (hlength : ((i + n : ℕ) : ℤ) = infos.length)
    (hdata : infos.length ≤ infos.data.length)
    (hsize : ∃ info ∈ (infos.data.drop i).take n, info.structSize ≠ L.infoSize) (numValid : ℕ) :
    countValid L infos n i numValid =
      some (.error (some "X-Plane API corrupted datarefs array")) := by
  induction n generalizing i numValid with
  | zero =>
    obtain ⟨info, hinfo, -⟩ := hsize
    cases hinfo
  | succ n ih =>
    have hi : i < infos.data.length := by omega
    rw [drop_take_succ hi, List.exists_mem_cons_iff] at hsize
    rw [countValid, getPointer_of_lt (by omega) (by omega)]
    dsimp only
    rw [Int.toNat_natCast, List.getElem?_eq_getElem hi]
    simp only [Option.bind_eq_bind, Option.bind_some]
    by_cases hfirst : infos.data[i].structSize = L.infoSize
    · have hrest := ih (by rw [← hlength]; omega) (hsize.resolve_left (not_not_intro hfirst))
        (if infos.data[i].name.isSome then numValid + 1 else numValid)
      rw [Int.natCast_add, Int.natCast_one] at hrest
      rw [if_neg (not_not_intro hfirst), hrest]
    · rw [if_pos hfirst]
      rfl

theorem infoText_encoded (info : DatarefInfo) (name : List UInt8) :
    infoText (encodedText info.types ++ [0]) info.writable name = datarefText (info, name) := by
  have hnul : 0 ∉ encodedText info.types := flagNames_nul _ _ _ _ _ _
  have htypes : cString (encodedText info.types ++ [0]) = encodedText info.types := by
    rw [cString, List.takeWhile_append_of_pos (forall_ne_of_not_mem hnul)]
    simp
  rw [infoText, htypes]
  rfl

theorem sendInfo_sends (h : w.Obliging) {id : ChannelId} (hid : w.channels.lookup id = some channel)
    (hconfirmed : channel.state = .confirmed) {timestamp : ℤ} (htimestamp : 0 ≤ timestamp)
    (out : List UInt8) (complete : Bool) :
    Ends (sendInfo complete id timestamp out) w fun err w' => err = .none ∧
      (w.sent id (if complete then .close else .continues)
        (channelLine channel (if complete then .close else .continues) timestamp (some out))).Ticks
          w' := by
  have hnew : ¬ channel.state = .initial := by
    rw [hconfirmed]
    decide
  have hallowed : ∀ action : ChannelAction, action = .close ∨ action = .continues →
      action.forbidden channel.state = false := by
    rintro action (rfl | rfl) <;> rw [hconfirmed] <;> rfl
  cases complete with
  | true =>
    obtain ⟨hval, ts, hts, hsent⟩ := messageChannel_sends
      (fun channel => if channel.state = .initial then .ackClose else .close)
        "failed to finish channel"
      h (.inr htimestamp) (some out) hid (by rw [if_neg hnew]; exact hallowed _ (.inl rfl))
    rw [if_neg hnew, hts htimestamp] at hsent
    exact ⟨hval, hsent⟩
  | false =>
    obtain ⟨hval, ts, hts, hsent⟩ := messageChannel_sends (fun _ => .continues)
      "failed to continue channel" h (.inr htimestamp) (some out) hid (hallowed _ (.inr rfl))
    rw [hts htimestamp] at hsent
    exact ⟨hval, hsent⟩

theorem submitInfo_ends (h : w.Obliging) (hid : w.channels.lookup w.memory.channelId = some channel)
    (hconfirmed : channel.state = .confirmed) (htimestamp : 0 ≤ w.memory.timestamp)
    {info : DatarefInfo} (hencodable : info.types &&& supportedTypes ≠ 0) (name : List UInt8)
    (complete : Bool) {next : DrlsM Unit}
    (hnext : ∀ w', (w.sent w.memory.channelId (if complete then .close else .continues)
        (channelLine channel (if complete then .close else .continues) w.memory.timestamp
          (some (datarefText (info, name))))).Ticks w' → Ends next w' Q) :
    Ends (submitInfo info name complete next) w Q := by
  refine (allocate_gives h).ends fun w₁ h₁ => ?_
  rw [encodeTypes_of_supported hencodable]
  refine (allocate_gives (h.ticks h₁)).ends fun w₂ h₂ => ?_
  obtain ⟨m, hm, rfl⟩ : w.Ticks w₂ := IsTrans.trans _ _ _ h₁ h₂
  rw [if_pos rfl]
  refine ends_get.2 ?_
  refine (sendInfo_sends (h.ticks ⟨m, hm, rfl⟩) hid hconfirmed htimestamp _ complete).andThen ?_
  rintro err w' ⟨rfl, m', hm', rfl⟩
  rw [if_neg (not_not_intro rfl), infoText_encoded]
  exact hnext _ ⟨m', Nat.le_trans hm hm', rfl⟩

/-- Without names there is nothing to do. -/
theorem submitLoop_rest (hlength : ((i + n : ℕ) : ℤ) = infos.length)
    (hdata : infos.length ≤ infos.data.length) (hnone : named ((infos.data.drop i).take n) = [])
    (numValid numSent : ℕ) : Gives (submitLoop infos numValid n i numSent) w () := by
  induction n generalizing i with
  | zero => exact .pure _ _
  | succ n ih =>
    have hi : i < infos.data.length := by omega
    rw [drop_take_succ hi, named_cons, List.append_eq_nil_iff] at hnone
    rw [submitLoop, getPointer_of_lt (by omega) (by omega)]
    dsimp only
    rw [Int.toNat_natCast, List.getElem?_eq_getElem hi]
    have hrest := ih (by rw [← hlength]; omega) hnone.2
    rw [Int.natCast_add, Int.natCast_one] at hrest
    cases hname : infos.data[i].name with
    | none =>
      rw [inMemory, hname]
      exact hrest
    | some name =>
      rw [hname] at hnone
      cases hnone.1

/-- **The second loop sends all items that have a name**, in order. -/
theorem submitLoop_ends {numValid numSent : ℕ} (h : w.Obliging)
    (hid : w.channels.lookup w.memory.channelId = some channel)
    (hconfirmed : channel.state = .confirmed) (htimestamp : 0 ≤ w.memory.timestamp)
    (hlength : ((i + n : ℕ) : ℤ) = infos.length) (hdata : infos.length ≤ infos.data.length)
    (hvalid : numValid = numSent + (named ((infos.data.drop i).take n)).length)
    (hencodable : ∀ item ∈ named ((infos.data.drop i).take n),
      item.1.types &&& supportedTypes ≠ 0) :
    Ends (submitLoop infos numValid n i numSent) w fun _ w' => w'.memory = w.memory ∧
      w'.wire = w.wire ++
        listLines channel w.memory.timestamp (named ((infos.data.drop i).take n)) := by
  induction n generalizing i numSent w with
  | zero => exact ⟨rfl, (List.append_nil _).symm⟩
  | succ n ih =>
    have hi : i < infos.data.length := by omega
    rw [drop_take_succ hi, named_cons] at hvalid hencodable ⊢
    rw [submitLoop, getPointer_of_lt (by omega) (by omega)]
    dsimp only
    rw [Int.toNat_natCast, List.getElem?_eq_getElem hi]
    have hlength' : ((i + 1 + n : ℕ) : ℤ) = infos.length := by rw [← hlength]; omega
    cases hname : infos.data[i].name with
    | none =>
      rw [hname] at hvalid hencodable
      rw [inMemory, hname]
      have hrest := ih h hid htimestamp hlength' hvalid hencodable
      rw [Int.natCast_add, Int.natCast_one] at hrest
      exact hrest
    | some name =>
      rw [hname] at hvalid hencodable
      rw [inMemory, hname]
      have hvalid' : numValid = numSent + 1 +
          (named ((infos.data.drop (i + 1)).take n)).length := by
        rw [hvalid]
        simp only [Option.map_some, Option.toList_some, List.length_append, List.length_singleton]
        omega
      have hencodable' := List.forall_mem_append.1 hencodable
      have hsupported := hencodable'.1 _ (List.mem_singleton.2 rfl)
      by_cases hlast : named ((infos.data.drop (i + 1)).take n) = []
      · -- the channel is closed, and nothing follows
        have hcomplete : decide (numValid = numSent + 1) = true := by
          rw [hvalid', hlast]
          simp
        rw [hcomplete, hlast]
        refine submitInfo_ends h hid hconfirmed htimestamp hsupported name true fun w' hw' => ?_
        obtain ⟨m, hm, rfl⟩ := hw'
        obtain ⟨-, m', -, hend⟩ := submitLoop_rest
          (w := (w.sent w.memory.channelId .close _).atTick m) hlength' hdata hlast numValid
            (numSent + 1)
        rw [Int.natCast_add, Int.natCast_one] at hend
        rw [Ends, if_pos rfl, hend]
        exact ⟨rfl, rfl⟩
      · have hcomplete : decide (numValid = numSent + 1) = false := by
          have := List.length_pos_of_ne_nil hlast
          exact decide_eq_false (by omega)
        rw [hcomplete]
        refine submitInfo_ends h hid hconfirmed htimestamp hsupported name false fun w' hw' => ?_
        obtain ⟨m, hm, rfl⟩ := hw'
        have hchannel : { channel with state := .confirmed } = channel := by rw [← hconfirmed]
        let line := channelLine channel .continues w.memory.timestamp
          (some (datarefText (infos.data[i], name)))
        have hrest := @ih ((w.sent w.memory.channelId .continues line).atTick m) _ _
          ((h.sent line).ticks ⟨m, hm, rfl⟩)
            ((World.sent_lookup hid line).trans (congrArg some hchannel))
          htimestamp hlength' hvalid' hencodable'.2
        rw [Int.natCast_add, Int.natCast_one] at hrest
        obtain ⟨hmemory, hwire⟩ := hrest
        refine ⟨hmemory, hwire.trans ?_⟩
        obtain ⟨next, more, hmore⟩ := List.exists_cons_of_ne_nil hlast
        rw [hmore]
        exact List.append_assoc ..

theorem fail_ends (text : String) (h : w.Obliging)
    (hid : w.channels.lookup w.memory.channelId = some channel)
    (hconfirmed : channel.state = .confirmed) :
    Ends (fail (some text)) w fun _ w' => w'.memory = { w.memory with failed := true } ∧
      ∃ ts message, w'.wire = w.wire ++ [channelLine channel .err ts message] := by
  refine ends_get.2 ?_
  have hopen : channel.state ≠ .closed := by
    rw [hconfirmed]
    decide
  refine (errorChannel_told (some (bytes text)) h hid hopen).andThen fun _ w' htold => ?_
  obtain ⟨channel', ts, message, hid', hwire⟩ := htold.wire
  obtain rfl : channel' = channel := Option.some.inj (hid'.symm.trans hid)
  exact ⟨congrArg (fun command : CommandDrls => { command with failed := true }) htold.memory,
    ts, message, hwire⟩

theorem processSubmit_of_infos {c' : ℕ} (hcount : w.memory.count = c')
    (hinfos : w.memory.datarefInfos = some infos)
    (h : Ends (inMemory (countValid L infos c' 0 0) (submitValid infos c'))
      (w.remember { w.memory with done := true }) Q) :
    Ends (processSubmit L) w Q := by
  refine ends_modify.2 ?_
  generalize hw : w.remember { w.memory with done := true } = w' at h ⊢
  have hinfos' : w'.memory.datarefInfos = some infos := by rw [← hw]; exact hinfos
  have hcount' : w'.memory.count = c' := by rw [← hw]; exact hcount
  refine ends_get.2 ?_
  rw [hinfos', hcount', Int.toNat_natCast]
  exact h

/-- The last stage sends what X-Plane left in the array. -/
theorem submit_ends {c' : ℕ} (h : w.Obliging)
    (hid : w.channels.lookup w.memory.channelId = some channel)
    (hconfirmed : channel.state = .confirmed) (htimestamp : 0 ≤ w.memory.timestamp)
    (hcount : w.memory.count = c') (hinfos : w.memory.datarefInfos = some infos)
    (hlength : infos.length = c') (hdata : c' ≤ infos.data.length)
    (hsize : ∀ info ∈ infos.data.take c', info.structSize = L.infoSize)
    (hencodable : ∀ item ∈ named (infos.data.take c'), item.1.types &&& supportedTypes ≠ 0) :
    Ends (processSubmit L) w fun _ w' => w'.memory.done = true ∧ w'.memory.asked = w.memory.asked ∧
      w'.memory.outside = w.memory.outside ∧
      (named (infos.data.take c') = [] →
        ∃ ts message, w'.wire = w.wire ++ [channelLine channel .err ts message]) ∧
      (named (infos.data.take c') ≠ [] →
        w'.wire = w.wire ++ listLines channel w.memory.timestamp (named (infos.data.take c'))) := by
  have hlength' : ((0 + c' : ℕ) : ℤ) = infos.length := by rw [Nat.zero_add, hlength]
  have hdata' : infos.length ≤ infos.data.length := by rw [hlength]; exact Int.ofNat_le.2 hdata
  have hcounted := countValid_eq (i := 0) hlength' hdata' (by rwa [List.drop_zero]) 0
  rw [Int.natCast_zero, List.drop_zero, Nat.zero_add] at hcounted
  refine processSubmit_of_infos hcount hinfos ?_
  rw [hcounted]
  by_cases hnone : named (infos.data.take c') = []
  · have hfail := fail_ends (w := w.remember { w.memory with done := true })
      "X-Plane API did not list any datarefs" (obliging_remember h _) hid hconfirmed
    rw [hnone]
    obtain ⟨hmemory, hwire⟩ := hfail
    have hdone := congrArg CommandDrls.done hmemory
    have hasked := congrArg CommandDrls.asked hmemory
    have houtside := congrArg CommandDrls.outside hmemory
    exact ⟨hdone, hasked, houtside, fun _ => hwire, fun hsome => absurd rfl hsome⟩
  · have hpos := List.length_pos_of_ne_nil hnone
    have hloop := @submitLoop_ends (w.remember { w.memory with done := true }) infos c' 0 channel
      (named (infos.data.take c')).length 0 (obliging_remember h _) hid hconfirmed
        htimestamp hlength' hdata'
      (by rw [List.drop_zero, Nat.zero_add]) (by rwa [List.drop_zero])
    rw [Int.natCast_zero, List.drop_zero] at hloop
    rw [inMemory, submitValid, if_neg (by omega)]
    obtain ⟨hmemory, hwire⟩ := hloop
    have hdone := congrArg CommandDrls.done hmemory
    have hasked := congrArg CommandDrls.asked hmemory
    have houtside := congrArg CommandDrls.outside hmemory
    exact ⟨hdone, hasked, houtside, fun hnone' => absurd hnone' hnone, fun _ => hwire⟩

/-- It fails if the memory of an item was not formatted. -/
theorem submit_corrupted {c' : ℕ} (h : w.Obliging)
    (hid : w.channels.lookup w.memory.channelId = some channel)
    (hconfirmed : channel.state = .confirmed)
    (hcount : w.memory.count = c') (hinfos : w.memory.datarefInfos = some infos)
    (hlength : infos.length = c') (hdata : c' ≤ infos.data.length)
    (hsize : ∃ info ∈ infos.data.take c', info.structSize ≠ L.infoSize) :
    Ends (processSubmit L) w fun _ w' =>
      w'.memory = { w.memory with done := true, failed := true } ∧
      ∃ ts message, w'.wire = w.wire ++ [channelLine channel .err ts message] := by
  have hlength' : ((0 + c' : ℕ) : ℤ) = infos.length := by rw [Nat.zero_add, hlength]
  have hdata' : infos.length ≤ infos.data.length := by rw [hlength]; exact Int.ofNat_le.2 hdata
  have hcounted := countValid_corrupted (i := 0) hlength' hdata' (by rwa [List.drop_zero]) 0
  rw [Int.natCast_zero] at hcounted
  refine processSubmit_of_infos hcount hinfos ?_
  rw [hcounted]
  exact fail_ends (w := w.remember { w.memory with done := true })
    "X-Plane API corrupted datarefs array" (obliging_remember h _) hid hconfirmed

/-! ### All stages -/

/-- The turn is none of this command. -/
def Idle (command : CommandDrls) : DrlsTurn → Prop
  | .flightloop _ =>
    command.failed = true ∨ command.done = true ∨ command.stage = .prepare ∨ command.stage = .submit
  | .post =>
    command.failed = true ∨ command.done = true ∨ command.stage = .count ∨ command.stage = .retrieve

theorem process_idle {turn : DrlsTurn} (h : Idle w.memory turn) :
    (process L turn).run w = ⟨(), w, []⟩ := by
  cases turn <;> obtain h | h | h | h := h <;> simp [process, get, processStage, h]

theorem processAll_active (turn : DrlsTurn) (stage : DrlsStage) {rest : List DrlsTurn}
    {P : World CommandDrls → Prop} (hfailed : w.memory.failed = false)
    (hdone : w.memory.done = false)
    (hstage : w.memory.stage = stage) (h : Ends (processStage L turn stage) w fun _ => P)
    (hrest : ∀ w', P w' → Ends (processAll L rest) w' Q) :
    Ends (processAll L (turn :: rest)) w Q := by
  refine Ends.andThen (P := fun _ => P) (ends_get.2 ?_) fun _ => hrest
  rw [hfailed, hdone, hstage]
  exact h

theorem processAll_idle {turns rest : List DrlsTurn} (h : ∀ turn ∈ turns, Idle w.memory turn)
    (hrest : Ends (processAll L rest) w Q) : Ends (processAll L (turns ++ rest)) w Q := by
  induction turns with
  | nil => exact hrest
  | cons turn turns ih =>
    rw [List.forall_mem_cons] at h
    have hprocess := process_idle (L := L) h.1
    have hturns := ih h.2
    refine Ends.andThen (P := fun _ w' => w' = w) ?_ ?_
    · rw [Ends, hprocess]
    · rintro _ _ rfl
      exact hturns

/-- Turn after turn, of which `first` is the flight loop of the first stage and `second` that of the
third; the command has nothing to do in the others. -/
def Turns (first second : XplmDatarefs) (turns : List DrlsTurn) : Prop :=
  ∃ posts frames posts' frames' rest : List DrlsTurn,
    (∀ turn ∈ posts, turn = .post) ∧ (∀ turn ∈ frames, turn ≠ .post) ∧
    (∀ turn ∈ posts', turn = .post) ∧ (∀ turn ∈ frames', turn ≠ .post) ∧
    turns = posts ++ .flightloop first :: (frames ++ .post :: (posts' ++ .flightloop second ::
      (frames' ++ .post :: rest)))

/-- What X-Plane leaves in memory that was formatted, dataref by dataref -/
def reported (L : XplmLayout) (xplane : XplmDatarefs) : List DatarefInfo :=
  (List.range xplane.count.toNat).map fun k => xplane.info (xplane.byIndex k)
    (setStructSize L .zeroed)

/-- The command did its work. -/
structure Listed (L : XplmLayout) (xplane : XplmDatarefs) (channel : Channel)
    (w w' : World CommandDrls) :
    Prop where
  /-- X-Plane was asked about every dataref, with `structSize` set. -/
  asked : w'.memory.asked.length = xplane.count.toNat ∧
    ∀ info ∈ w'.memory.asked, info.structSize = L.infoSize
  inside : w'.memory.outside = false
  sent : named (reported L xplane) ≠ [] →
    ∃ now, 0 ≤ now ∧ w'.wire = w.wire ++ listLines channel now (named (reported L xplane))
  error : named (reported L xplane) = [] →
    ∃ ts message, w'.wire = w.wire ++ [channelLine channel .err ts message]

theorem idle_of_post {turns : List DrlsTurn} (hturns : ∀ turn ∈ turns, turn = .post)
    (hstage : command.stage = .count ∨ command.stage = .retrieve) :
    ∀ turn ∈ turns, Idle command turn := by
  intro turn hturn
  rw [hturns turn hturn]
  exact .inr (.inr hstage)

theorem idle_of_flightloop {turns : List DrlsTurn} (hturns : ∀ turn ∈ turns, turn ≠ .post)
    (hstage : command.stage = .prepare ∨ command.stage = .submit) :
    ∀ turn ∈ turns, Idle command turn := by
  intro turn hturn
  cases turn with
  | post => exact absurd rfl (hturns _ hturn)
  | flightloop _ => exact .inr (.inr hstage)

theorem idle_of_done (hdone : command.done = true) (turn : DrlsTurn) : Idle command turn := by
  cases turn with
  | post => exact .inr (.inl hdone)
  | flightloop _ => exact .inr (.inl hdone)

/-- Nothing happens once the command is done. -/
theorem processAll_done (hdone : w.memory.done = true) (turns : List DrlsTurn) :
    Ends (processAll L turns) w fun _ w' => w' = w := by
  rw [← List.append_nil turns]
  exact processAll_idle (fun turn _ => idle_of_done hdone turn) rfl

/-- The command gets to its last stage. -/
theorem turns_ends {first second : XplmDatarefs} {turns : List DrlsTurn} {id : ChannelId}
    (hturns : Turns first second turns) (h : w.Obliging) (hmemory : w.memory = .created id)
    (hfirst : 0 < first.count) (hsecond : 0 < second.count)
    (hsubmit : ∀ w' command, Becomes w command w' →
      Retrieved L second first.count.toNat second.count.toNat (.created id) command →
      Ends (processSubmit L) w' fun _ w' => w'.memory.done = true ∧ Q () w') :
    Ends (processAll L turns) w Q := by
  obtain ⟨posts, frames, posts', frames', rest, hposts, hframes, hposts', hframes', rfl⟩ := hturns
  -- the first stage
  refine processAll_idle (idle_of_post hposts (.inl (by rw [hmemory]; rfl))) ?_
  have hcount := count_ends first w
  rw [hmemory] at hcount
  refine processAll_active (.flightloop first) .count (by rw [hmemory]; rfl) (by rw [hmemory]; rfl)
    (by rw [hmemory]; rfl) hcount fun w₁ h₁ => ?_
  have hmemory₁ := h₁.memory
  -- the second stage
  refine processAll_idle (idle_of_flightloop hframes (.inl (by rw [hmemory₁]))) ?_
  have hprepare := prepare_ends L (h₁.obliging h) (by rw [hmemory₁]; exact hfirst)
  rw [hmemory₁] at hprepare
  refine processAll_active .post .prepare (by rw [hmemory₁]; rfl) (by rw [hmemory₁]; rfl)
    (by rw [hmemory₁]) hprepare fun w₂ h₂ => ?_
  have hmemory₂ := h₂.memory
  -- the third stage
  refine processAll_idle (idle_of_post hposts' (.inr (by rw [hmemory₂]; rfl))) ?_
  have hretrieve := retrieve_ends second (h₂.obliging (h₁.obliging h)) hmemory₂ rfl
      rfl rfl hfirst hsecond
  refine processAll_active (.flightloop second) .retrieve (by rw [hmemory₂]; rfl)
    (by rw [hmemory₂]; rfl) (by rw [hmemory₂]; rfl) hretrieve fun w₃ hend => ?_
  obtain ⟨command, hretrieved, h₃⟩ := hend
  -- the last stage
  refine processAll_idle
    (idle_of_flightloop hframes' (.inr (by rw [h₃.memory]; exact hretrieved.stage))) ?_
  have hend := hsubmit w₃ command ((h₁.trans h₂).trans h₃) ⟨hretrieved.channelId, hretrieved.failed,
    hretrieved.done, hretrieved.outside, hretrieved.stage, hretrieved.timestamp, hretrieved.count,
    hretrieved.asked, hretrieved.infos⟩
  refine processAll_active .post .submit (by rw [h₃.memory]; exact hretrieved.failed)
    (by rw [h₃.memory]; exact hretrieved.done) (by rw [h₃.memory]; exact hretrieved.stage)
    hend fun w₄ h₄ => ?_
  have hrest := processAll_done (L := L) h₄.1 rest
  rw [Ends] at hrest ⊢
  rw [hrest]
  exact h₄.2

theorem given_of_lt {c k : ℕ} (h : k < c) : given L c k = setStructSize L .zeroed := if_pos h

theorem Becomes.sent {w₃ : World CommandDrls} (h : Becomes w command w₃) {lines : List (List UInt8)}
    {w' : World CommandDrls} (hwire : w'.wire = w₃.wire ++ lines) : w'.wire = w.wire ++ lines := by
  rw [hwire, h.wire]

section

variable {first second : XplmDatarefs} {turns : List DrlsTurn} {id : ChannelId}
  (hturns : Turns first second turns) (h : w.Obliging) (hmemory : w.memory = .created id)
  (hid : w.channels.lookup id = some channel) (hconfirmed : channel.state = .confirmed)
  (hfirst : 1 ≤ first.count) (hsecond : 1 ≤ second.count)
  (hinfo : ∀ dataref info, (second.info dataref info).structSize = info.structSize)

include hturns h hmemory hid hconfirmed hfirst hsecond hinfo

theorem listed_of_le
    (hencodable : ∀ item ∈ named (reported L second), item.1.types &&& supportedTypes ≠ 0)
    (hle : second.count ≤ first.count) :
    Ends (processAll L turns) w fun _ w' => Listed L second channel w w' := by
  refine turns_ends hturns h hmemory hfirst hsecond fun w₃ command hbecomes hretrieved => ?_
  obtain ⟨infos, hinfos, hlength, hentries⟩ := hretrieved.infos
  have hgiven : ∀ k ∈ List.range second.count.toNat,
      given L first.count.toNat k = setStructSize L .zeroed := by
    intro k hk
    have := List.mem_range.1 hk
    exact given_of_lt (by omega)
  have hreported : infos.data.take second.count.toNat = reported L second := by
    rw [hentries]
    exact List.map_congr_left fun k hk => by rw [hgiven k hk]
  have hdata : second.count.toNat ≤ infos.data.length := by
    have := congrArg List.length hentries
    rw [List.length_take, List.length_map, List.length_range] at this
    omega
  have hsize : ∀ info ∈ reported L second, info.structSize = L.infoSize := by
    intro info hmem
    obtain ⟨k, -, rfl⟩ := List.mem_map.1 hmem
    exact hinfo _ _
  have hid₃ : w₃.channels.lookup w₃.memory.channelId = some channel := by
    rw [hbecomes.memory, hretrieved.channelId, hbecomes.channels]
    exact hid
  have hsubmit := submit_ends (hbecomes.obliging h) hid₃ hconfirmed
    (by rw [hbecomes.memory]; exact hretrieved.timestamp)
    (by rw [hbecomes.memory]; exact hretrieved.count)
    (by rw [hbecomes.memory]; exact hinfos) hlength hdata (by rwa [hreported]) (by rwa [hreported])
  rw [hreported] at hsubmit
  obtain ⟨hdone, hasked, houtside, hnone, hsome⟩ := hsubmit
  have hallAsked :=
    hasked.trans ((congrArg CommandDrls.asked hbecomes.memory).trans hretrieved.asked)
  refine ⟨hdone, ⟨?_, ?_⟩, ?_, fun hne => ?_, fun hempty => ?_⟩
  · rw [hallAsked]
    simp [CommandDrls.created]
  · intro info hmem
    rw [hallAsked] at hmem
    obtain ⟨k, hk, rfl⟩ := List.mem_map.1 hmem
    rw [hgiven k hk]
    rfl
  · exact houtside.trans ((congrArg CommandDrls.outside hbecomes.memory).trans hretrieved.outside)
  · exact ⟨_, by rw [hbecomes.memory]; exact hretrieved.timestamp, hbecomes.sent (hsome hne)⟩
  · obtain ⟨ts, message, hwire⟩ := hnone hempty
    exact ⟨ts, message, hbecomes.sent hwire⟩

/-- X-Plane was given memory that was not formatted. -/
theorem not_listed_of_lt (hlt : first.count < second.count) :
    Ends (processAll L turns) w fun _ w' => ¬ Listed L second channel w w' := by
  refine turns_ends hturns h hmemory hfirst hsecond fun w₃ command hbecomes hretrieved => ?_
  obtain ⟨infos, hinfos, hlength, hentries⟩ := hretrieved.infos
  have hgrown : first.count.toNat ∈ List.range second.count.toNat := List.mem_range.2 (by omega)
  have hgiven : given L first.count.toNat first.count.toNat = .zeroed := if_neg (Nat.lt_irrefl _)
  have hunformatted : DatarefInfo.zeroed.structSize ≠ L.infoSize := by
    have := L.infoSize_le
    change (0 : ℤ) ≠ _
    omega
  have hdata : second.count.toNat ≤ infos.data.length := by
    have := congrArg List.length hentries
    rw [List.length_take, List.length_map, List.length_range] at this
    omega
  have hsize : ∃ info ∈ infos.data.take second.count.toNat, info.structSize ≠ L.infoSize := by
    rw [hentries]
    refine ⟨_, List.mem_map.2 ⟨_, hgrown, rfl⟩, ?_⟩
    rw [hinfo, hgiven]
    exact hunformatted
  have hid₃ : w₃.channels.lookup w₃.memory.channelId = some channel := by
    rw [hbecomes.memory, hretrieved.channelId, hbecomes.channels]
    exact hid
  have hsubmit := submit_corrupted (hbecomes.obliging h) hid₃ hconfirmed
    (by rw [hbecomes.memory]; exact hretrieved.count)
    (by rw [hbecomes.memory]; exact hinfos) hlength hdata hsize
  obtain ⟨hmemory', -⟩ := hsubmit
  have hdone := congrArg CommandDrls.done hmemory'
  have hasked := congrArg CommandDrls.asked hmemory'
  have hallAsked :=
    hasked.trans ((congrArg CommandDrls.asked hbecomes.memory).trans hretrieved.asked)
  refine ⟨hdone, fun hlisted => hunformatted ?_⟩
  rw [← hgiven]
  refine hlisted.asked.2 _ ?_
  rw [hallAsked]
  exact List.mem_map.2 ⟨_, hgrown, rfl⟩

end


end

end DrlsUnspecific

open DrlsUnspecific in
/-- **The command does its work unless there are more datarefs than were counted first**: then the
memory for the others was not formatted, and what X-Plane leaves in it is taken for corrupted. -/
theorem drls_lists_iff (L : XplmLayout) {first second : XplmDatarefs} {turns : List DrlsTurn}
    {w : World CommandDrls} {id : ChannelId} {channel : Channel} (hturns : Turns first second turns)
    (h : w.Obliging) (hmemory : w.memory = .created id) (hid : w.channels.lookup id = some channel)
    (hconfirmed : channel.state = .confirmed) (hfirst : 1 ≤ first.count)
    (hsecond : 1 ≤ second.count)
    (hinfo : ∀ dataref info, (second.info dataref info).structSize = info.structSize)
    (hencodable : ∀ item ∈ named (reported L second), item.1.types &&& supportedTypes ≠ 0) :
    Ends (processAll L turns) w (fun _ w' => Listed L second channel w w') ↔
      second.count ≤ first.count := by
  refine ⟨fun hlisted => ?_, listed_of_le hturns h hmemory hid hconfirmed hfirst
    hsecond hinfo hencodable⟩
  by_contra hlt
  exact not_listed_of_lt hturns h hmemory hid hconfirmed hfirst hsecond hinfo
    (Int.not_le.1 hlt) hlisted

/-- A layout of 64 bit systems -/
def XplmLayout.sample : XplmLayout where
  datarefSize := 8
  infoSize := 32
  overwrite _ dataref := dataref
  datarefSize_le := by decide
  infoSize_le := by decide
  infoSize_lt := by decide

/-- X-Plane with so many integers of the name `a` -/
def XplmDatarefs.sample (count : ℤ) : XplmDatarefs where
  count := count
  byIndex k := k
  info _ info := { info with name := some (bytes "a"), types := 1 }

/-- A new command on the channel `aaaa` -/
def World.listing : World CommandDrls :=
  { World.idle (.created 0) with channels := .single ⟨0, .confirmed, false, none, none⟩ }

theorem World.listing_obliging : World.listing.Obliging := by
  refine ⟨fun _ => rfl, fun tick => ?_, fun _ => rfl, fun _ => ⟨⟨0, 0⟩, rfl, by decide⟩, by decide⟩
  rintro (h | ⟨-, h⟩ | h) <;> cases h

theorem World.listing_lookup :
    World.listing.channels.lookup 0 = some ⟨0, .confirmed, false, none, none⟩ :=
  ChannelsTable.lookup_single (by decide)

/-- Flight loop and post-processing, twice -/
def DrlsUnspecific.turns (first second : ℤ) : List DrlsTurn :=
  [.flightloop (.sample first), .post, .flightloop (.sample second), .post]

theorem DrlsUnspecific.turns_turns (first second : ℤ) :
    DrlsUnspecific.Turns (.sample first) (.sample second) (DrlsUnspecific.turns first second) := by
  refine ⟨[], [], [], [], [], ?_, ?_, ?_, ?_, rfl⟩ <;> exact fun _ h => absurd h List.not_mem_nil

theorem drls_lists_iff_sample :
    Ends (DrlsUnspecific.processAll .sample (DrlsUnspecific.turns 2 1)) .listing (fun _ w' =>
        DrlsUnspecific.Listed .sample (.sample 1) ⟨0, .confirmed, false, none, none⟩ .listing w') ↔
      (1 : ℤ) ≤ 2 :=
  drls_lists_iff .sample (DrlsUnspecific.turns_turns 2 1) World.listing_obliging rfl
    World.listing_lookup rfl (by decide) (by decide) (fun _ _ => rfl) fun item hitem => by
      obtain rfl := List.mem_singleton.1 hitem
      decide

/-- There is one dataref at first, and then there are two. -/
theorem not_drls_lists :
    ¬ Ends (DrlsUnspecific.processAll .sample (DrlsUnspecific.turns 1 2)) .listing (fun _ w' =>
        DrlsUnspecific.Listed .sample (.sample 2) ⟨0, .confirmed, false, none, none⟩ .listing w') :=
  DrlsUnspecific.not_listed_of_lt (DrlsUnspecific.turns_turns 1 2) World.listing_obliging rfl
    World.listing_lookup rfl (by decide) (by decide) (fun _ _ => rfl) (by decide)

end XprcServer
