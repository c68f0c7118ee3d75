import Mathlib
import XprcServer.Commands.Drmu
import XprcServer.Commands.Sampling
import XprcServer.Commands.Termination

/-!
# The cycles of DRMU

`command_drmu.c`: in every flight loop a DRMU command writes values to its datarefs, until the
target values are reached.  That ends a cycle; unless the command is repeated, it is done then.
Otherwise the next cycle starts when the interval has passed, which is counted in frames or in
milliseconds of session time, as the duration of a cycle is.

The progress of a cycle is a quotient of two integers.  The code computes it as a `double`, which is
at least 1.0 iff the quotient is at least 1; what is computed from it otherwise is up to
`DrmuFloats`.

* `DrmuCycle.processFlightloop`, `DrmuCycle.processPost` : the code;
* `DrmuCycle.step_simulates` : every step of the code is one of `Drmu`, in which it was left open
  what the inner functions do;
* `drmu_ends` : what the next post-processing does to a command that is done.
-/

namespace XprcServer

/-- `drmu_monitor_mode_t`, without the one that is not supported -/
inductive DrmuMonitor where
  | none
  | get
  | set
  deriving DecidableEq, Repr

/-- `drmu_dataref_t` -/
structure DrmuTarget extends DrmuDataref where
  xpRef : Option ℕ
  proxy : Option ℕ
  deriving DecidableEq, Repr

/-- `command_drmu_t`; the session is the one of the port the command works on. -/
structure CommandDrmu where
  channelId : ChannelId
  task : Option ℕ
  phase : TaskSchedulePhase
  method : DrmuMethod
  monitorMode : DrmuMonitor
  baseTimeMillis : ℤ
  interval : ℤ
  intervalRemainingFrames : ℤ
  isIntervalFrames : Bool
  duration : ℤ
  durationFrames : ℤ
  isDurationFrames : Bool
  initialized : Bool
  failed : Bool
  updateBaseValues : Bool
  cycleComplete : Bool
  done : Bool
  datarefs : List DrmuTarget
  hasProxiedDatarefs : Bool
  hasFetchBasedDatarefs : Bool
  timestamp : ℤ
  deriving DecidableEq, Repr

/-- The arithmetic of `calculate_linear_values`: the item between a base and a target item, unless
it is not a number. -/
structure DrmuFloats where
  /-- For items of the type, and a progress below 1 -/
  linear : BitVec 32 → ℚ → BitVec 32 → BitVec 32 → Option (BitVec 32)
  linearDouble : ℚ → BitVec 64 → BitVec 64 → Option (BitVec 64)

/-- X-Plane and the proxies of datarefs in a flight loop -/
structure DrmuXp where
  /-- `XPLMFindDataRef` -/
  find : List UInt8 → Option ℕ
  /-- `XPLMGetDataRefTypes` -/
  types : ℕ → BitVec 32
  /-- `XPLMGetDatai`, `XPLMGetDataf` and `XPLMGetDatad` -/
  get : BitVec 32 → Option ℕ → DrmuValues
  /-- `read_xplm_dataref_array`: the items from an offset on, with the capacity of the array -/
  getArray : BitVec 32 → Option ℕ → ℤ → ℕ → Option (List (BitVec 32))
  /-- `lock_dataproxy_registry` -/
  lockRegistry : ErrorCode
  /-- `dataproxy_simple_get` -/
  proxySimpleGet : ℕ → BitVec 32 → Except ErrorCode DrmuValues
  /-- `dataproxy_array_get` with an offset and a number of items -/
  proxyArrayGet : ℕ → BitVec 32 → ℤ → ℕ → Except ErrorCode (List (BitVec 32))
  /-- `dataproxy_simple_set` -/
  proxySimpleSet : ℕ → BitVec 32 → DrmuValues → ErrorCode
  /-- `dataproxy_array_update` with an offset -/
  proxyArrayUpdate : ℕ → BitVec 32 → ℤ → DrmuValues → ErrorCode

/-- Values that were handed over to X-Plane or to a proxy -/
structure DrmuWrite where
  name : List UInt8
  type : BitVec 32
  offset : ℤ
  values : DrmuValues
  deriving DecidableEq, Repr

namespace DrmuCycle

/-- The command and what it works on -/
structure State where
  command : CommandDrmu
  port : Port
  written : List DrmuWrite

namespace State

/-- A message on the channel of the command -/
def send (s : State) (call : ChannelCall) (timestamp : ℤ) (text : Option (List UInt8)) : State :=
  { s with port := s.port.send call s.command.channelId timestamp text }

/-- Change the command. -/
def modify (s : State) (f : CommandDrmu → CommandDrmu) : State := { s with command := f s.command }

/-- `command->failed = true` -/
def markFailed (s : State) : State := s.modify fun command => { command with failed := true }

end State

/-! ### Initialization -/

/-- The loop of `drmu_initialize`: the datarefs, and the message of the error if it stops -/
def findDatarefs (xp : DrmuXp) : List DrmuTarget → List DrmuTarget × Option String
  | [] => ([], none)
  | dataref :: rest =>
    match xp.find dataref.name with
    | none => ({ dataref with xpRef := none } :: rest, some "dataref does not exist")
    | some ref =>
      if xp.types ref &&& dataref.type = 0 then
        ({ dataref with xpRef := some ref } :: rest, some "type is not available from dataref")
      else
        let r := findDatarefs xp rest
        ({ dataref with xpRef := some ref } :: r.1, r.2)

/-- `drmu_initialize` -/
def initializeCommand (xp : DrmuXp) (s : State) : Bool × State :=
  let r := findDatarefs xp s.command.datarefs
  let s := s.modify fun command => { command with datarefs := r.1 }
  match r.2 with
  | some text => (false, (s.send .error currentTimeReference (some (bytes text))).markFailed)
  | none => (true, s.modify fun command => { command with initialized := true })

/-- The part of `drmu_process_flightloop` that initializes the command -/
def ensureInitialized (xp : DrmuXp) (s : State) : Bool × State :=
  if s.command.initialized then (true, s)
  else
    let r := initializeCommand xp s
    if !r.1 then (false, r.2.markFailed)
    else
      (true, (r.2.send .confirm currentTimeReference none).modify fun command =>
        -- base values need to be updated unless all were provided
        { command with updateBaseValues := command.hasFetchBasedDatarefs })

/-! ### Reading and writing -/

/-- `read_dataref`; `dest` is what was in the array before.  The arrays that are read into have the
capacity of the target values. -/
def readDataref (xp : DrmuXp) (dataref : DrmuTarget) (dest : DrmuValues) : Option DrmuValues :=
  if dest.length < 1 then none
  else
    match dataref.proxy with
    | some proxy =>
      if isSimpleType dataref.type then (xp.proxySimpleGet proxy dataref.type).toOption
      else
        match dest, xp.proxyArrayGet proxy dataref.type dataref.targetArrayOffset dest.length with
        | .array arr, .ok items => some (.array ⟨arr.itemSize, items⟩)
        | _, _ => none
    | none =>
      if isSimpleType dataref.type then some (xp.get dataref.type dataref.xpRef)
      else if isArrayType dataref.type then
        match dest, xp.getArray dataref.type dataref.xpRef dataref.targetArrayOffset
          dataref.targetValues.length with
        | .array arr, some items => some (.array ⟨arr.itemSize, items⟩)
        | _, _ => none
      else none

/-- `write_dataref` -/
def writeDataref (xp : DrmuXp) (dataref : DrmuTarget) (values : DrmuValues) : Bool :=
  if values.length < 1 then false
  else
    match dataref.proxy with
    | some proxy =>
      if isSimpleType dataref.type then xp.proxySimpleSet proxy dataref.type values = .none
      else xp.proxyArrayUpdate proxy dataref.type dataref.targetArrayOffset values = .none
    | none => isSimpleType dataref.type || isArrayType dataref.type

/-- `calculate_linear_values`: the values in the buffer, unless one of them is not a number -/
def calculateLinearValues (floats : DrmuFloats) (dataref : DrmuTarget) (progress : ℚ) :
    Option DrmuValues :=
  match dataref.bufferValues, dataref.baseValues, dataref.targetValues with
  | .array buffer, some (.array base), .array target => do
    let items ← (List.range buffer.items.length).mapM fun i => do
      -- bytes are not numbers
      if dataref.type = xplmTypeData then none
      floats.linear dataref.type progress (← base.items[i]?) (← target.items[i]?)
    pure (.array ⟨buffer.itemSize, items⟩)
  | .double _, some (.double base), .double target => do
    pure (.double (← floats.linearDouble progress base target))
  | _, _, _ => none

/-- `dynamic_array_copy_from_other` of the target values to the buffer, which has their capacity:
where the buffer is longer, its other items stay. -/
def copyTarget (dataref : DrmuTarget) : Option DrmuValues :=
  match dataref.bufferValues, dataref.targetValues with
  | .array buffer, .array target =>
    if buffer.itemSize ≠ target.itemSize then none
    else some (.array ⟨buffer.itemSize, target.items ++ buffer.items.drop target.items.length⟩)
  | .double _, .double bits => some (.double bits)
  | _, _ => none

/-! ### Updating the datarefs -/

/-- What the loop over the datarefs depends on -/
structure Frame where
  method : DrmuMethod
  monitorMode : DrmuMonitor
  updateBaseValues : Bool
  progress : ℚ

/-- The target values are submitted. -/
def Frame.completes (frame : Frame) : Bool :=
  frame.method = .immediate || decide (1 ≤ frame.progress)

/-- What one round of the loop leaves: the dataref, what it wrote, whether it completed the cycle,
and whether it was successful. -/
structure Updated where
  dataref : DrmuTarget
  written : List DrmuWrite
  completed : Bool
  success : Bool

section

variable (floats : DrmuFloats) (xp : DrmuXp)

/-- The base values are updated if they are wanted. -/
def updateBase (frame : Frame) (dataref : DrmuTarget) : Option DrmuTarget :=
  if frame.updateBaseValues && dataref.baseOnDataref then do
    let values ← readDataref xp dataref (← dataref.baseValues)
    if values.length ≠ dataref.targetValues.length then none
    else some { dataref with baseValues := some values }
  else some dataref

/-- The values are written, and read again if they are monitored; `copied` says whether the target
values could be copied for the monitor. -/
def submitValues (frame : Frame) (dataref : DrmuTarget) (values : DrmuValues)
    (completed copied : Bool) :
    Updated :=
  if writeDataref xp dataref values = false then ⟨dataref, [], completed, false⟩
  else
    let written := [⟨dataref.name, dataref.type, dataref.targetArrayOffset, values⟩]
    if frame.monitorMode = .get then
      match readDataref xp dataref dataref.bufferValues with
      | none => ⟨dataref, written, completed, false⟩
      | some buffer => ⟨{ dataref with bufferValues := buffer }, written, completed, copied⟩
    else ⟨dataref, written, completed, copied⟩

/-- One round of the loop of `drmu_process_flightloop` -/
def updateDataref (frame : Frame) (dataref : DrmuTarget) : Updated :=
  match updateBase xp frame dataref with
  | none => ⟨dataref, [], false, false⟩
  | some dataref =>
    if frame.completes then
      if frame.monitorMode ≠ .none then
        match copyTarget dataref with
        | some buffer =>
          submitValues xp frame { dataref with bufferValues := buffer } dataref.targetValues
            true true
        | none => submitValues xp frame dataref dataref.targetValues true false
      else submitValues xp frame dataref dataref.targetValues true true
    else
      match calculateLinearValues floats dataref frame.progress with
      | some buffer =>
        submitValues xp frame { dataref with bufferValues := buffer } buffer false true
      | none => ⟨dataref, [], false, false⟩

/-- The loop of `drmu_process_flightloop`: the datarefs, what was written, whether the cycle is
complete, and whether all rounds were successful.  It goes on after an error. -/
def updateDatarefs (frame : Frame) : List DrmuTarget →
    List DrmuTarget × List DrmuWrite × Bool × Bool
  | [] => ([], [], false, true)
  | dataref :: rest =>
    let u := updateDataref floats xp frame dataref
    let r := updateDatarefs frame rest
    (u.dataref :: r.1, u.written ++ r.2.1, u.completed || r.2.2.1, u.success && r.2.2.2)

end

/-! ### Timing -/

/-- The loop that forwards the base time, as `interval` is positive; every round adds at least one,
so that more than `now - baseTimeMillis` rounds are enough. -/
def forwardBase (now interval : ℤ) : ℕ → ℤ → Bool × ℤ
  | 0, base => (false, base)
  | fuel + 1, base =>
    if interval ≤ now - base then (true, (forwardBase now interval fuel (base + interval)).2)
    else (false, base)

/-- The part of `drmu_process_flightloop` that checks if the next cycle is due -/
def checkCycle (now : ℤ) (command : CommandDrmu) : Bool × CommandDrmu :=
  if 0 < command.interval then
    if command.isIntervalFrames then
      let remaining := command.intervalRemainingFrames - 1
      if remaining ≤ 0 then
        (true, { command with intervalRemainingFrames := command.interval, baseTimeMillis := now })
      else (false, { command with intervalRemainingFrames := remaining })
    else
      let r := forwardBase now command.interval ((now - command.baseTimeMillis).toNat + 1)
        command.baseTimeMillis
      (r.1, { command with baseTimeMillis := r.2 })
  else (false, command)

/-- A cycle starts. -/
def restartCycle (command : CommandDrmu) : CommandDrmu :=
  { command with
    cycleComplete := false
    durationFrames := 0
    updateBaseValues := command.hasFetchBasedDatarefs }

/-- The part of `drmu_process_flightloop` that computes the progress -/
def progressOf (now : ℤ) (command : CommandDrmu) : ℚ × CommandDrmu :=
  if command.method = .immediate then (1, command)
  else if command.isDurationFrames then
    (max 0 ((command.durationFrames + 1 : ℤ) / (command.duration : ℚ)),
      { command with durationFrames := command.durationFrames + 1 })
  else (max 0 ((max 0 (now - command.baseTimeMillis) : ℤ) / (command.duration : ℚ)), command)

/-! ### The flight loop -/

/-- The part of `drmu_process_flightloop` that updates the data -/
def updateData (floats : DrmuFloats) (xp : DrmuXp) (now : ℤ) (progress : ℚ) (s : State) : State :=
  if s.command.hasProxiedDatarefs && decide (xp.lockRegistry ≠ .none) then
    (s.send .error currentTimeReference
      (some (bytes "failed to lock dataproxy registry"))).markFailed
  else
    let frame := ⟨s.command.method, s.command.monitorMode, s.command.updateBaseValues, progress⟩
    let r := updateDatarefs floats xp frame s.command.datarefs
    let s : State := ⟨{ s.command with
      timestamp := now
      datarefs := r.1
      cycleComplete := s.command.cycleComplete || r.2.2.1
      done := if r.2.2.1 then decide (s.command.interval ≤ 0) else s.command.done },
      s.port, s.written ++ r.2.1⟩
    if r.2.2.2 then s.modify fun command => { command with updateBaseValues := false }
    else (s.send .error now (some (bytes "error during update"))).markFailed

/-- The part of `drmu_process_flightloop` behind the initialization -/
def runCycle (floats : DrmuFloats) (xp : DrmuXp) (now : ℤ) (s : State) : State :=
  if now < 0 then s.markFailed
  else
    let r := checkCycle now s.command
    if r.2.cycleComplete && !r.1 then { s with command := r.2 }
    else
      let p := progressOf now (if r.1 then restartCycle r.2 else r.2)
      updateData floats xp now p.1 { s with command := p.2 }

/-- `drmu_process_flightloop`; `now` is the result of `millis_since_reference`. -/
def processFlightloop (floats : DrmuFloats) (xp : DrmuXp) (now : ℤ) (s : State) : State :=
  if s.command.failed || s.command.done then s
  else
    let r := ensureInitialized xp s
    if r.1 then runCycle floats xp now r.2 else r.2.markFailed

/-! ### Post-processing -/

/-- The datarefs as `submit_monitor_data` encodes them, which is the code of DRQV -/
def monitored (dataref : DrmuTarget) : DrqvDataref DrmuValues :=
  ⟨dataref.name, dataref.type, dataref.xpRef, some dataref.bufferValues⟩

/-- `submit_monitor_data`; `submitted` is the result of `continue_channel` or `finish_channel`. -/
def submitMonitorData (submitted : ErrorCode) (env : EncodeEnv DrmuValues) (willContinue : Bool)
    (s : State) : State :=
  let timestamp := s.command.timestamp
  if s.command.monitorMode = .none then s
  else
    match Drqv.encodeAll env (s.command.datarefs.map monitored) with
    | .error text => (s.send .error timestamp (some (bytes text))).markFailed
    | .ok out =>
      let s := s.send (if willContinue then .continues else .finish) timestamp (some out)
      let s :=
        if submitted ≠ .none then
          (s.send .error timestamp (some (bytes "error on result submission"))).markFailed
        else s
      s.modify fun command => { command with timestamp := 0 }

/-- `drmu_terminate`; `lock` is the result of `lock_schedule`. -/
def terminate (lock : ErrorCode) (s : State) : ErrorCode × State :=
  let r := s.port.terminate lock s.command.channelId s.command.task s.command.phase
  (r.1, ⟨{ s.command with channelId := r.2.1, task := r.2.2.1 }, r.2.2.2, s.written⟩)

/-- The second part of `drmu_process_post`: a command that has failed closes its channel. -/
def closeFailed (s : State) : State :=
  if s.command.failed then
    (s.send .error currentTimeReference none).modify fun command => { command with done := true }
  else s

/-- `drmu_process_post` -/
def processPost (lock submitted : ErrorCode) (env : EncodeEnv DrmuValues) (s : State) : State :=
  if !s.command.failed && (!s.command.initialized && !s.command.done) then s
  else
    let s :=
      if !s.command.failed && decide (0 < s.command.timestamp) then
        submitMonitorData submitted env (!s.command.done) s
      else s
    let s := closeFailed s
    if s.command.done then (terminate lock s).2 else s

/-- What happens to a DRMU command: its task runs in a flight loop or in post-processing. -/
inductive Event where
  | flightloop (now : ℤ) (xp : DrmuXp)
  | post (lock submitted : ErrorCode) (env : EncodeEnv DrmuValues)

/-- `drmu_process`, which is called while the task `t` is scheduled -/
def step (floats : DrmuFloats) (t : ℕ) (s : State) (event : Event) : State :=
  if t ∈ s.port.queues s.command.phase then
    match event with
    | .flightloop now xp => processFlightloop floats xp now s
    | .post lock submitted env => processPost lock submitted env s
  else s

/-- The command after the events -/
def run (floats : DrmuFloats) (t : ℕ) (s : State) (events : List Event) : State :=
  events.foldl (step floats t) s

/-! ### The streams of `Drmu` -/

/-- The fields that decide how the processing goes on -/
def fields (command : CommandDrmu) : DrmuFields :=
  ⟨command.phase, command.initialized, command.failed, command.done, command.timestamp⟩

/-- What a termination and the processing of the command depend on -/
def view (s : State) : Stream DrmuFields :=
  ⟨s.command.channelId, s.command.task, fields s.command, s.port⟩

/-- From `s` to `s'`, only the inner fields of the command were changed, and messages were sent. -/
def Amounts (s s' : State) : Prop := ∃ work, view s' = Drmu.apply work (view s)

section

variable {floats : DrmuFloats} {xp : DrmuXp} {s s' s'' : State}

theorem Amounts.of_command (hid : s'.command.channelId = s.command.channelId)
    (htask : s'.command.task = s.command.task) (hphase : s'.command.phase = s.command.phase)
    (hport : s'.port = s.port) : Amounts s s' := by
  refine ⟨⟨fields s'.command, []⟩, ?_⟩
  simp [view, Drmu.apply, Stream.apply, fields, messagesOn, hid, htask, hphase, hport]

theorem Amounts.refl (s : State) : Amounts s s := .of_command rfl rfl rfl rfl

theorem Amounts.send (s : State) (call : ChannelCall) (timestamp : ℤ) (text : Option (List UInt8)) :
    Amounts s (s.send call timestamp text) :=
  ⟨⟨fields s.command, [(call, timestamp, text)]⟩, rfl⟩

theorem Amounts.trans (h : Amounts s s') (h' : Amounts s' s'') : Amounts s s'' := by
  obtain ⟨work, hwork⟩ := h
  obtain ⟨work', hwork'⟩ := h'
  refine ⟨⟨work'.fields, work.messages ++ work'.messages⟩, ?_⟩
  rw [hwork', hwork]
  simp [Drmu.apply, Stream.apply, messagesOn]

theorem Amounts.markFailed (h : Amounts s s') : Amounts s s'.markFailed :=
  h.trans (.of_command rfl rfl rfl rfl)

theorem initializeCommand_amounts (xp : DrmuXp) (s : State) : Amounts s
    (initializeCommand xp s).2 := by
  unfold initializeCommand
  dsimp only
  have hfound : Amounts s (s.modify fun command =>
      { command with datarefs := (findDatarefs xp s.command.datarefs).1 }) :=
        .of_command rfl rfl rfl rfl
  split
  · exact (hfound.trans (.send _ _ _ _)).markFailed
  · exact hfound.trans (.of_command rfl rfl rfl rfl)

theorem ensureInitialized_amounts (xp : DrmuXp) (s : State) : Amounts s
    (ensureInitialized xp s).2 := by
  have hfinds := initializeCommand_amounts xp s
  unfold ensureInitialized
  dsimp only
  split_ifs
  · exact .refl s
  · exact hfinds.markFailed
  · exact (hfinds.trans (.send _ _ _ _)).trans (.of_command rfl rfl rfl rfl)

theorem updateData_amounts (floats : DrmuFloats) (xp : DrmuXp) (now : ℤ)
    (progress : ℚ) (s : State) :
    Amounts s (updateData floats xp now progress s) := by
  unfold updateData
  by_cases hlocked : (s.command.hasProxiedDatarefs && decide (xp.lockRegistry ≠ .none)) = true
  · rw [if_pos hlocked]
    exact (Amounts.send _ _ _ _).markFailed
  rw [if_neg hlocked]
  dsimp only
  generalize updateDatarefs floats xp _ s.command.datarefs = r
  obtain ⟨datarefs, written, completed, success⟩ := r
  cases success with
  | true => exact .of_command rfl rfl rfl rfl
  | false =>
    refine Amounts.trans ?_ (Amounts.send _ _ _ _).markFailed
    exact .of_command rfl rfl rfl rfl

/-- The check changes the base time and the number of frames that remain. -/
theorem checkCycle_frame (now : ℤ) (command : CommandDrmu) :
    (checkCycle now command).2 = { command with
      baseTimeMillis := (checkCycle now command).2.baseTimeMillis
      intervalRemainingFrames := (checkCycle now command).2.intervalRemainingFrames } := by
  unfold checkCycle
  dsimp only
  split_ifs <;> rfl

/-- The computation of the progress changes the number of frames of the cycle. -/
theorem progressOf_frame (now : ℤ) (command : CommandDrmu) :
    (progressOf now command).2 =
      { command with durationFrames := (progressOf now command).2.durationFrames } := by
  unfold progressOf
  split_ifs <;> rfl

theorem runCycle_amounts (floats : DrmuFloats) (xp : DrmuXp) (now : ℤ) (s : State) :
    Amounts s (runCycle floats xp now s) := by
  have hcheck := checkCycle_frame now s.command
  unfold runCycle
  dsimp only
  generalize checkCycle now s.command = r at hcheck ⊢
  obtain ⟨restart, command⟩ := r
  dsimp only at hcheck ⊢
  have hprogress := progressOf_frame now (if restart = true then restartCycle command else command)
  generalize progressOf now (if restart = true then restartCycle command else command) =
    p at hprogress ⊢
  obtain ⟨progress, timed⟩ := p
  dsimp only at hprogress ⊢
  split_ifs
  · exact (Amounts.refl s).markFailed
  · exact .of_command (by rw [hcheck]) (by rw [hcheck]) (by rw [hcheck]) rfl
  · refine Amounts.trans ?_ (updateData_amounts floats xp now progress _)
    rw [hprogress, hcheck]
    cases restart <;> exact .of_command rfl rfl rfl rfl

/-- What a flight loop does to the stream, unless the command has failed or is done -/
theorem flightloop_amounts (floats : DrmuFloats) (xp : DrmuXp) (now : ℤ) (s : State) :
    Amounts s (if (ensureInitialized xp s).1 then runCycle floats xp now (ensureInitialized xp s).2
      else (ensureInitialized xp s).2.markFailed) := by
  have hinit := ensureInitialized_amounts xp s
  split_ifs
  · exact hinit.trans (runCycle_amounts floats xp now _)
  · exact hinit.markFailed

theorem submitMonitorData_amounts (submitted : ErrorCode) (env : EncodeEnv DrmuValues)
    (willContinue : Bool)
    (s : State) : Amounts s (submitMonitorData submitted env willContinue s) := by
  unfold submitMonitorData
  dsimp only
  by_cases hnone : s.command.monitorMode = .none
  · rw [if_pos hnone]
    exact .refl s
  rw [if_neg hnone]
  cases Drqv.encodeAll env (s.command.datarefs.map monitored) with
  | error text => exact (Amounts.send _ _ _ _).markFailed
  | ok out =>
    dsimp only
    have hsend :
        Amounts s (s.send (if willContinue then .continues else .finish) s.command.timestamp
        (some out)) := .send _ _ _ _
    by_cases hsubmitted : submitted ≠ .none
    · rw [if_pos hsubmitted]
      exact (hsend.trans (.send _ _ _ _)).markFailed.trans (.of_command rfl rfl rfl rfl)
    · rw [if_neg hsubmitted]
      exact hsend.trans (.of_command rfl rfl rfl rfl)

theorem processFlightloop_refines (floats : DrmuFloats) (xp : DrmuXp) (now : ℤ) (s : State) :
    ∃ work, view (processFlightloop floats xp now s) = Drmu.processFlightloop work (view s) := by
  obtain ⟨work, hwork⟩ := flightloop_amounts floats xp now s
  refine ⟨work, ?_⟩
  rw [Drmu.processFlightloop, ← hwork]
  unfold processFlightloop
  dsimp only
  by_cases hover : (s.command.failed || s.command.done) = true
  · rw [if_pos hover]
    exact (if_pos hover).symm
  · rw [if_neg hover]
    exact (if_neg hover).symm

theorem closeFailed_view (s : State) : view (closeFailed s) = Drmu.closeFailed (view s) := by
  unfold closeFailed
  by_cases hfailed : s.command.failed = true
  · rw [if_pos hfailed]
    exact (if_pos hfailed).symm
  · rw [if_neg hfailed]
    exact (if_neg hfailed).symm

theorem processPost_refines (lock submitted : ErrorCode) (env : EncodeEnv DrmuValues) (s : State) :
    ∃ work, view (processPost lock submitted env s) = Drmu.processPost lock work (view s) := by
  obtain ⟨work, hwork⟩ := submitMonitorData_amounts submitted env (!s.command.done) s
  refine ⟨work, ?_⟩
  have hsubmit : view (if !s.command.failed && decide (0 < s.command.timestamp) then
      submitMonitorData submitted env (!s.command.done) s else s) = Drmu.submit work (view s) := by
    rw [Drmu.submit, ← hwork]
    exact apply_ite view _ _ _
  unfold processPost Drmu.processPost
  rw [← hsubmit]
  dsimp only
  rw [← closeFailed_view]
  generalize (if !s.command.failed && decide (0 < s.command.timestamp) then
      submitMonitorData submitted env (!s.command.done) s else s) = s'
  by_cases hidle : (!s.command.failed && (!s.command.initialized && !s.command.done)) = true
  · rw [if_pos hidle]
    exact (if_pos hidle).symm
  rw [if_neg hidle]
  refine Eq.trans ?_ (if_neg hidle).symm
  by_cases hdone : (closeFailed s').command.done = true
  · rw [if_pos hdone]
    exact (if_pos hdone).symm
  · rw [if_neg hdone]
    exact (if_neg hdone).symm

/-- A step of the command is one of the stream, if the task is scheduled. -/
theorem step_simulates (V : Type) {t : ℕ} {id : ChannelId}
    (h : (termSystem V t id).Reachable (.drmu (view s))) (event : Event) :
    (termSystem V t id).Reachable (.drmu (view (step floats t s event))) := by
  unfold step
  by_cases hscheduled : t ∈ s.port.queues s.command.phase
  · rw [if_pos hscheduled]
    cases event with
    | flightloop now xp =>
      obtain ⟨work, hwork⟩ := processFlightloop_refines floats xp now s
      dsimp only
      rw [hwork]
      exact h.step _ (.drmuFlightloop hscheduled)
    | post lock submitted env =>
      obtain ⟨work, hwork⟩ := processPost_refines lock submitted env s
      dsimp only
      rw [hwork]
      exact h.step _ (.drmuPost hscheduled)
  · rw [if_neg hscheduled]
    exact h

theorem run_simulates (V : Type) {t : ℕ} {id : ChannelId}
    (h : (termSystem V t id).Reachable (.drmu (view s))) (events : List Event) :
    (termSystem V t id).Reachable (.drmu (view (run floats t s events))) := by
  induction events generalizing s with
  | nil => exact h
  | cons event events ih => exact ih (step_simulates V h event)

theorem run_unscheduled {t : ℕ} (h : t ∉ s.port.queues s.command.phase) (events : List Event) :
    run floats t s events = s := by
  induction events with
  | nil => rfl
  | cons event events ih =>
    have hstep : step floats t s event = s := if_neg h
    rw [run, List.foldl_cons, hstep]
    exact ih

theorem closeFailed_done (h : s.command.done = true ∨ s.command.failed = true) :
    (closeFailed s).command.done = true := by
  unfold closeFailed
  split_ifs with hfailed
  · rfl
  · exact h.resolve_right hfailed

theorem submitMonitorData_over (submitted : ErrorCode) (env : EncodeEnv DrmuValues)
    (willContinue : Bool) (s : State) :
    (submitMonitorData submitted env willContinue s).command.done = s.command.done ∧
      (submitMonitorData submitted env willContinue s).command.phase = s.command.phase ∧
      (submitMonitorData submitted env willContinue s).written = s.written := by
  unfold submitMonitorData
  dsimp only
  by_cases hnone : s.command.monitorMode = .none
  · rw [if_pos hnone]
    exact ⟨rfl, rfl, rfl⟩
  rw [if_neg hnone]
  cases Drqv.encodeAll env (s.command.datarefs.map monitored) with
  | error text => exact ⟨rfl, rfl, rfl⟩
  | ok out =>
    dsimp only
    by_cases hsubmitted : submitted ≠ .none
    · rw [if_pos hsubmitted]
      exact ⟨rfl, rfl, rfl⟩
    · rw [if_neg hsubmitted]
      exact ⟨rfl, rfl, rfl⟩

/-- A command that is done or has failed is terminated by its next post-processing. -/
theorem processPost_over {lock submitted : ErrorCode} {env : EncodeEnv DrmuValues}
    (h : s.command.done = true ∨ s.command.failed = true) :
    ∃ s', Amounts s s' ∧ s'.command.phase = s.command.phase ∧ s'.written = s.written ∧
      processPost lock submitted env s = (terminate lock s').2 := by
  have hbusy : ¬ (!s.command.failed && (!s.command.initialized && !s.command.done)) = true := by
    rcases h with hdone | hfailed
    · rw [hdone, Bool.not_true, Bool.and_false, Bool.and_false]
      exact Bool.false_ne_true
    · rw [hfailed, Bool.not_true, Bool.false_and]
      exact Bool.false_ne_true
  obtain ⟨s₁, hs₁, hamounts, hphase, hwritten, hover⟩ :
      ∃ s₁, (if !s.command.failed && decide (0 < s.command.timestamp) then
          submitMonitorData submitted env (!s.command.done) s else s) = s₁ ∧
        Amounts s s₁ ∧ s₁.command.phase = s.command.phase ∧ s₁.written = s.written ∧
        (s₁.command.done = true ∨ s₁.command.failed = true) := by
    refine ⟨_, rfl, ?_⟩
    split_ifs with hsubmit
    · obtain ⟨hdone, hphase, hwritten⟩ := submitMonitorData_over submitted env (!s.command.done) s
      have hworking := (Bool.and_eq_true_iff.1 hsubmit).1
      rw [Bool.not_eq_true'] at hworking
      rw [hworking] at h
      exact ⟨submitMonitorData_amounts _ _ _ _, hphase, hwritten,
        .inl (hdone.trans (h.resolve_right Bool.false_ne_true))⟩
    · exact ⟨.refl s, rfl, rfl, h⟩
  have hclose : Amounts s₁ (closeFailed s₁) ∧ (closeFailed s₁).command.phase = s₁.command.phase ∧
      (closeFailed s₁).written = s₁.written := by
    unfold closeFailed
    split_ifs
    · exact ⟨(Amounts.send _ _ _ _).trans (.of_command rfl rfl rfl rfl), rfl, rfl⟩
    · exact ⟨.refl s₁, rfl, rfl⟩
  refine ⟨closeFailed s₁, hamounts.trans hclose.1, hclose.2.1.trans hphase,
    hclose.2.2.trans hwritten, ?_⟩
  unfold processPost
  rw [if_neg hbusy, hs₁]
  exact if_pos (closeFailed_done hover)

/-- **DRMU commands end.**  Whatever happens to a command before in flight loops and in
post-processing: once its last cycle is complete, or anything has failed, the next post-processing
that can lock the schedule takes its task off the schedule and requests the end of its channel,
without a write.  From then on nothing happens to the command or to its datarefs any more. -/
theorem drmu_ends {t : ℕ} {id : ChannelId} (hid : s.command.channelId = id)
    (htask : s.command.task = some t) (hcount : (s.port.queues s.command.phase).count t = 1)
    (hlookup : s.port.channels.lookup id ≠ none) (events later : List Event)
    (hscheduled : t ∈ (run floats t s events).port.queues (run floats t s events).command.phase)
    (hover : (run floats t s events).command.done = true ∨
      (run floats t s events).command.failed = true)
    (submitted : ErrorCode) (env : EncodeEnv DrmuValues) :
    let ended := run floats t s (events ++ [.post .none submitted env])
    t ∉ ended.port.queues ended.command.phase ∧ ended.command.task = none ∧
      Seat.Marked id ended.port.channels ∧ ended.written = (run floats t s events).written ∧
      run floats t s (events ++ .post .none submitted env :: later) = ended := by
  have hreachable : (termSystem Unit t id).Reachable (.drmu (view s)) :=
    .start ⟨.inl ⟨hid, htask, hcount⟩, hlookup⟩
  have hsound :=
    (termRun_sound_of_reachable (@run_simulates floats s Unit t id hreachable events)).seat
  intro ended
  have hended : ended = processPost .none submitted env (run floats t s events) := by
    change run floats t s (events ++ [.post .none submitted env]) = _
    rw [run, List.foldl_append]
    exact if_pos hscheduled
  obtain ⟨s', ⟨work, hwork⟩, hphase, hwritten, hpost⟩ :=
    @processPost_over _ .none submitted env hover
  have hseat : (Drmu.seat (view s')).Sound t id := by
    rw [hwork]
    exact hsound.works (.keeps (messagesOn _ work.messages))
  obtain ⟨hschedules, -, hok, -, hlock⟩ := hseat.schedules.terminate .none s'.command.channelId
  obtain ⟨-, hnone, -⟩ := hok (hlock rfl)
  obtain ⟨-, hmarked⟩ := (hseat.terminate .none).2 rfl
  have hgone : t ∉ ended.port.queues ended.command.phase := by
    rw [hended, hpost]
    rcases hschedules with ⟨hsome, -⟩ | ⟨-, hcount⟩
    · exact absurd (hnone.symm.trans hsome) (Option.some_ne_none t).symm
    · exact List.count_eq_zero.1 hcount
  refine ⟨hgone, ?_, ?_, ?_, ?_⟩
  · rw [hended, hpost]
    exact hnone
  · rw [hended, hpost]
    exact hmarked
  · rw [hended, hpost]
    exact hwritten
  · rw [List.append_cons, run, List.foldl_append]
    exact run_unscheduled hgone later

end

/-- A command that writes once, in the flight loop after its creation -/
theorem drmu_ends_immediate :
    let channel : Channel := ⟨5, .initial, false, none, none⟩
    let port : Port := ⟨.single channel, fun _ => [7], []⟩
    let item : DrmuValues := .array ⟨4, [20]⟩
    let c : CommandDrmu :=
      { channelId := 5, task := some 7, phase := .beforeFlightModel
        method := .immediate, monitorMode := .set
        baseTimeMillis := 40, interval := 0, intervalRemainingFrames := 0, isIntervalFrames := true
        duration := 2500, durationFrames := 0, isDurationFrames := false, initialized := false
        failed := false, updateBaseValues := false, cycleComplete := false, done := false
        datarefs := [⟨⟨xplmTypeInt, -1, bytes "d", item, item, none, false⟩, none, none⟩]
        hasProxiedDatarefs := false, hasFetchBasedDatarefs := false, timestamp := 0 }
    let floats : DrmuFloats := ⟨fun _ _ _ target => some target, fun _ _ target => some target⟩
    let xp : DrmuXp :=
      { find := fun _ => some 1, types := fun _ => xplmTypeInt, get := fun _ _ => item
        getArray := fun _ _ _ _ => none, lockRegistry := .none
        proxySimpleGet := fun _ _ => .error .unspecific
        proxyArrayGet := fun _ _ _ _ => .error .unspecific
        proxySimpleSet := fun _ _ _ => .unspecific, proxyArrayUpdate := fun _ _ _ _ => .unspecific }
    let env : EncodeEnv DrmuValues :=
      ⟨true, fun _ => true, fun _ => true, fun _ _ => some [], fun _ => true, true⟩
    (run floats 7 ⟨c, port, []⟩ [.flightloop 100 xp, .post .none .none env]).written.length = 1 ∧
      7 ∉ (run floats 7 ⟨c, port, []⟩ [.flightloop 100 xp, .post .none .none env]).port.queues
        (run floats 7 ⟨c, port, []⟩ [.flightloop 100 xp, .post .none .none env]).command.phase := by
  refine ⟨by decide +kernel,
    (drmu_ends rfl rfl (by decide) ?_ [.flightloop 100 _] [] (by decide +kernel)
    (.inl (by decide +kernel)) .none _).1⟩
  have htable : (ChannelsTable.single ⟨5, .initial, false, none, none⟩).lookup 5 =
      some ⟨5, .initial, false, none, none⟩ := ChannelsTable.lookup_single (by decide)
  exact Option.ne_none_iff_exists'.2 ⟨_, htable⟩

end DrmuCycle

end XprcServer
