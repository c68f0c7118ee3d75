import XprcServer.Commands.Cmtr
import XprcServer.Server.Handshake
import XprcServer.Commands.Cmrg
import XprcServer.Dataproxy.Access

/-!
# The command DRQV

`command_drqv.c`: DRQV reports the values of datarefs on a channel, once or again and again.  Its
task looks the datarefs up in the first flight loop.  Whenever the interval has passed, a flight
loop samples all values; post-processing encodes the last sample and sends it.

The two meet in three fields of the command only.  `timestamp` is the time of a sample that has not
been sent, and 0 if there is none; the values are those of the last sample; `times_remaining` is
counted down by the flight loop, and post-processing closes the channel if it finds nothing left of
it.

The interval is counted in frames or in milliseconds of session time; `now` is the result of
`millis_since_reference`, which is negative if the time is not known.  Values are of a type `V` that
only X-Plane and the encoding know more about.
-/

namespace XprcServer

/-- `drqv_dataref_t` -/
structure DrqvDataref (V : Type) where
  name : List UInt8
  type : BitVec 32
  xpRef : Option ℕ
  valueBuffer : Option V
  deriving DecidableEq, Repr

/-- `command_drqv_t`; the session is the one of the port the command works on. -/
structure CommandDrqv (V : Type) where
  channelId : ChannelId
  task : Option ℕ
  phase : TaskSchedulePhase
  interval : ℤ
  intervalWait : ℤ
  isIntervalFrames : Bool
  timesRemaining : ℤ
  intervalNotBeforeTimestamp : ℤ
  initialized : Bool
  failed : Bool
  datarefs : List (DrqvDataref V)
  timestamp : ℤ
  deriving DecidableEq, Repr

/-- `request_has_option` -/
def Request.hasOption (request : Request) (name : String) : Bool :=
  request.options.any fun option => cString option.name = bytes name

/-- `ends_with` -/
def endsWith (haystack needle : List UInt8) : Bool := needle.isSuffixOf haystack

/-- `xprc_parse_type` of the text before the type separator -/
def xprcParseType (s : List UInt8) : BitVec 32 :=
  if s = bytes "int" then xplmTypeInt
  else if s = bytes "float" then xplmTypeFloat
  else if s = bytes "double" then xplmTypeDouble
  else if s = bytes "int[]" then xplmTypeIntArray
  else if s = bytes "float[]" then xplmTypeFloatArray
  else if s = bytes "blob" then xplmTypeData
  else xplmTypeUnknown

/-- Why `copy_xplm_dataref_array` fails. -/
inductive ArrayFailure where
  | negativeLength
  | resize
  | inconsistent
  deriving DecidableEq, Repr

/-- The message of the error. -/
def ArrayFailure.text : ArrayFailure → String
  | negativeLength => "negative length received for dataref array"
  | resize => "failed to resize internal array"
  | inconsistent => "dataref returned inconsistent number of items"

/-- X-Plane in a flight loop: the datarefs that exist with the types they are available in, and
their values. -/
structure XpDatarefs (V : Type) where
  /-- `XPLMFindDataRef` -/
  find : List UInt8 → Option ℕ
  /-- `XPLMGetDataRefTypes` -/
  types : ℕ → BitVec 32
  /-- `XPLMGetDatai`, `XPLMGetDataf` and `XPLMGetDatad` -/
  get : BitVec 32 → Option ℕ → V
  /-- `copy_xplm_dataref_array` with `XPLMGetDatavi`, `XPLMGetDatavf` and `XPLMGetDatab` -/
  getArray : BitVec 32 → Option ℕ → Except ArrayFailure V

/-- What decides whether the values of datarefs can be encoded.  The `n`-th of them is preceded by a
separator unless it is the first one. -/
structure EncodeEnv (V : Type) where
  createList : Bool
  copySeparator : ℕ → Bool
  appendSeparator : ℕ → Bool
  /-- `encode_dataref_value` -/
  encode : BitVec 32 → Option V → Option (List UInt8)
  appendValue : ℕ → Bool
  concatenate : Bool

namespace Drqv

/-- `INFINITE_REPETITION` -/
def infiniteRepetition : ℤ := -2134896

/-- `drqv_supported_options` -/
def supportedOptions : List String := ["freq", "phase", "times"]

variable {V : Type}

/-- The command and what it works on. -/
structure State (V : Type) where
  command : CommandDrqv V
  port : Port

namespace State

/-- A message on the channel of the command. -/
def send (s : State V) (call : ChannelCall) (timestamp : ℤ)
    (text : Option (List UInt8)) : State V :=
  { s with port := s.port.send call s.command.channelId timestamp text }

/-- Change the command. -/
def modify (s : State V) (f : CommandDrqv V → CommandDrqv V) : State V :=
  { s with command := f s.command }

/-- `command->failed = true` -/
def markFailed (s : State V) : State V := s.modify fun command => { command with failed := true }

end State

/-! ### Creation -/

/-- The phase that `drqv_create` reads, an `int8_t` -/
def parsePhase (lib : Library) (s : List UInt8) : Option TaskSchedulePhase :=
  let phase := (BitVec.ofInt 8 (atoi lib s)).toInt
  if phase = 0 then some .beforeFlightModel
  else if phase = 1 then some .afterFlightModel
  else none

/-- The number of repetitions that `drqv_create` reads. -/
def parseTimes (lib : Library) (request : Request) : Except String ℤ :=
  if request.hasOption "times" then
    let times := atoi lib (request.getOption "times" "0")
    if times ≤ 0 then .error "number of times" else .ok times
  else .ok infiniteRepetition

/-- The dataref that a parameter asks for, with a buffer that is `blank`. -/
def parseDataref (blank : BitVec 32 → V) (parameter : List UInt8) : Except String (DrqvDataref V) :=
  let type := parameter.takeWhile (· ≠ 58)
  if type.length = parameter.length ∨ type.length < 1 then
    .error "datarefs must be specified with type"
  else
    let name := parameter.drop (type.length + 1)
    if name.length < 1 then .error "dataref name is missing"
    else if xprcParseType type = xplmTypeUnknown then .error "unknown type"
    else .ok ⟨name, xprcParseType type, none, some (blank (xprcParseType type))⟩

/-- The part of `drqv_create` that reads the options and the parameters of the request; `now` is the
session time.  All that is left then is to schedule the task. -/
def configure (lib : Library) (blank : BitVec 32 → V) (request : Request) (now : ℤ) :
    Except String (CommandDrqv V) := do
  let phase ← match parsePhase lib (request.getOption "phase" "0") with
    | none => .error "unsupported phase"
    | some phase => .ok phase
  let timesRemaining ← parseTimes lib request
  let freq := request.getOption "freq" "1000ms"
  if !(endsWith freq (bytes "ms") || endsWith freq (bytes "f")) then
    .error "invalid format for freq"
  let interval := atoi lib freq
  if interval ≤ 0 then .error "invalid value for freq"
  if request.parameters.isEmpty then .error "at least one dataref is required"
  let datarefs ← request.parameters.mapM fun parameter => parseDataref blank (cString parameter)
  pure
    { channelId := request.channelId
      task := none
      phase := phase
      interval := interval
      intervalWait := 0
      isIntervalFrames := endsWith freq (bytes "f")
      timesRemaining := timesRemaining
      intervalNotBeforeTimestamp := now
      initialized := false
      failed := false
      datarefs := datarefs
      timestamp := 0 }

/-- What a successful creation leaves: the options were read, the task `t` is scheduled, and nothing
was sent yet. -/
structure Created (lib : Library) (blank : BitVec 32 → V) (request : Request)
    (t : ℕ) (s : State V) :
    Prop where
  options : request.hasOnlyOptions supportedOptions = true
  configured : ∃ now, 0 ≤ now ∧ configure lib blank request now =
    .ok { s.command with task := none }
  task : s.command.task = some t
  scheduled : (s.port.queues s.command.phase).count t = 1
  silent : s.port.sent = []

/-! ### Termination -/

/-- `drqv_terminate`; `lock` is the result of `lock_schedule`. -/
def terminate (lock : ErrorCode) (s : State V) : ErrorCode × State V :=
  let r := s.port.terminate lock s.command.channelId s.command.task s.command.phase
  (r.1, ⟨{ s.command with channelId := r.2.1, task := r.2.2.1 }, r.2.2.2⟩)

/-! ### Flight loop -/

/-- The loop of `drqv_initialize`: the datarefs, and the message of the error if it stops. -/
def findDatarefs (xp : XpDatarefs V) : List (DrqvDataref V) → List (DrqvDataref V) × Option String
  | [] => ([], none)
  | dataref :: rest =>
    if dataref.valueBuffer.isNone then
      (dataref :: rest, some "internal error preparing dataref buffer")
    else
      match xp.find dataref.name with
      | none => ({ dataref with xpRef := none } :: rest, some "dataref does not exist")
      | some ref =>
        if xp.types ref &&& dataref.type = 0 then
          ({ dataref with xpRef := some ref } :: rest, some "type is not available from dataref")
        else
          let r := findDatarefs xp rest
          ({ dataref with xpRef := some ref } :: r.1, r.2)

/-- `drqv_initialize` -/
def initializeCommand (xp : XpDatarefs V) (s : State V) : Bool × State V :=
  let r := findDatarefs xp s.command.datarefs
  let s := s.modify fun command => { command with datarefs := r.1 }
  match r.2 with
  | some text => (false, (s.send .error currentTimeReference (some (bytes text))).markFailed)
  | none => (true, s.modify fun command => { command with initialized := true })

/-- The part of `drqv_process_flightloop` that decides whether it is due: the first flight loop that
finds all datarefs is, and later ones are when the interval has passed. -/
def checkDue (xp : XpDatarefs V) (now : ℤ) (s : State V) : Bool × State V :=
  if !s.command.initialized then
    let r := initializeCommand xp s
    if !r.1 then (false, r.2.markFailed) else (true, r.2.send .confirm now none)
  else if !s.command.isIntervalFrames then (s.command.intervalNotBeforeTimestamp ≤ now, s)
  else
    (s.command.intervalWait - 1 ≤ 0,
      s.modify fun command => { command with intervalWait := command.intervalWait - 1 })

/-- The part of `drqv_process_flightloop` that resets the "timer". -/
def resetTimer (now : ℤ) (command : CommandDrqv V) : CommandDrqv V :=
  if command.isIntervalFrames then { command with intervalWait := command.interval }
  else
    { command with
      intervalNotBeforeTimestamp :=
        Cmtr.forwardLoop now command.interval ((now - command.intervalNotBeforeTimestamp).toNat + 1)
          command.intervalNotBeforeTimestamp }

/-- The value of a dataref, or the message of the error. -/
def readDataref (xp : XpDatarefs V) (dataref : DrqvDataref V) : Except String V :=
  if isSimpleType dataref.type then .ok (xp.get dataref.type dataref.xpRef)
  else if isArrayType dataref.type then
    (xp.getArray dataref.type dataref.xpRef).mapError ArrayFailure.text
  else .error "unsupported type"

/-- The loop of `drqv_process_flightloop` over the datarefs, with the message of the error if it
stops. -/
def updateDatarefs (xp : XpDatarefs V) : List (DrqvDataref V) → List (DrqvDataref V) × Option String
  | [] => ([], none)
  | dataref :: rest =>
    match readDataref xp dataref with
    | .error text => (dataref :: rest, some text)
    | .ok value =>
      let r := updateDatarefs xp rest
      ({ dataref with valueBuffer := some value } :: r.1, r.2)

/-- The part of `drqv_process_flightloop` that samples the values. -/
def sample (xp : XpDatarefs V) (now : ℤ) (s : State V) : State V :=
  let r := updateDatarefs xp s.command.datarefs
  let s := s.modify fun command => { command with timestamp := now, datarefs := r.1 }
  match r.2 with
  | some text => (s.send .error now (some (bytes text))).markFailed
  | none => s

/-- The part of `drqv_process_flightloop` that counts the repetitions before it samples. -/
def repeatSample (xp : XpDatarefs V) (now : ℤ) (s : State V) : State V :=
  if 0 < s.command.timesRemaining then
    sample xp now (s.modify fun command =>
      { command with timesRemaining := command.timesRemaining - 1 })
  else if s.command.timesRemaining ≠ infiniteRepetition then s
  else sample xp now s

/-- `drqv_process_flightloop` -/
def processFlightloop (xp : XpDatarefs V) (now : ℤ) (s : State V) : State V :=
  if s.command.failed || now < 0 then s
  else
    let r := checkDue xp now s
    if !r.1 then r.2 else repeatSample xp now (r.2.modify (resetTimer now))

/-! ### Post-processing -/

/-- The loop of `drqv_process_post` over the datarefs, from the `n`-th one on: the text so far is
extended, or there is an error. -/
def encodeDatarefs (env : EncodeEnv V) : ℕ → List UInt8 → List (DrqvDataref V) →
    Except String (List UInt8)
  | _, out, [] => .ok out
  | n, out, dataref :: rest =>
    if n ≠ 0 ∧ env.copySeparator n = false then .error "failed to copy separator"
    else if n ≠ 0 ∧ env.appendSeparator n = false then .error "failed to append separator to list"
    else
      match env.encode dataref.type dataref.valueBuffer with
      | none => .error "failed to encode value"
      | some value =>
        if env.appendValue n = false then .error "failed to append encoded value to list"
        else
          encodeDatarefs env (n + 1) (out ++ (if n = 0 then [] else bytes ";") ++ value) rest

/-- The part of `drqv_process_post` that makes the text of a message out of the values. -/
def encodeAll (env : EncodeEnv V) (datarefs : List (DrqvDataref V)) : Except String (List UInt8) :=
  if !env.createList then .error "failed to allocate list for value encoding"
  else
    match encodeDatarefs env 0 [] datarefs with
    | .error text => .error text
    | .ok out =>
      if !env.concatenate then .error "failed to allocate memory to concatenate encoded values"
      else .ok out

/-- `drqv_process_post`; `submitted` is the result of `continue_channel`. -/
def processPost (lock submitted : ErrorCode) (env : EncodeEnv V) (s : State V) : State V :=
  let timestamp := s.command.timestamp
  if s.command.failed then (terminate lock s).2
  else if !s.command.initialized then s
  else if timestamp ≤ 0 then s
  else
    match encodeAll env s.command.datarefs with
    | .error text => (s.send .error timestamp (some (bytes text))).markFailed
    | .ok out =>
      if 0 < s.command.timesRemaining ∨ s.command.timesRemaining = infiniteRepetition then
        let s := s.send .continues timestamp (some out)
        let s :=
          if submitted ≠ .none then
            (s.send .error timestamp (some (bytes "error on result submission"))).markFailed
          else s
        s.modify fun command => { command with timestamp := 0 }
      else (terminate lock (s.send .finish timestamp (some out))).2

end Drqv

end XprcServer
