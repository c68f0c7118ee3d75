import XprcServer.Commands.Xpcommands

/-!
# The command CMRG

`command_cmrg.c`: CMRG registers an X-Plane command and reports its events on a channel.  Creating
and terminating it takes the lock of the X-Plane command registry under the locks of the schedule
and the session; an event takes the lock of the session under that of the registry.

`cmrgCommands` is the family of commands whose CMRG is this one: CMRG keeps to the lock discipline
of commands (`create_tidy`, `terminateCommand_tidy`).
-/

namespace XprcServer

open Lib

/-! ### Options and parameters -/

/-- `request_has_only_options` -/
def Request.hasOnlyOptions (request : Request) (names : List String) : Bool :=
  request.options.all fun option => names.any fun name => cString option.name = bytes name

/-- `request_get_option` -/
def Request.getOption (request : Request) (name default : String) : List UInt8 :=
  match request.options.find? fun option => cString option.name = bytes name with
  | some option => cString option.value
  | none => bytes default

/-- The loop of `copy_partial_unescaped_string`; `escaped` says that the last character was an open
escape.  The number of characters is an `int` in the source, so the strings are those of less than
2^31 - 1 characters; the longest line a client can send has 2^16. -/
def unescapeLoop : Bool → List UInt8 → Option (List UInt8)
  | escaped, [] => if escaped then none else some []
  | true, ch :: rest => (unescapeLoop false rest).map (ch :: ·)
  | false, ch :: rest =>
    if ch = 92 then unescapeLoop true rest else (unescapeLoop false rest).map (ch :: ·)

/-- `copy_unescaped_string`, for such a string -/
def copyUnescapedString {μ : Type} (s : Option (List UInt8)) : M μ (Option (List UInt8)) := do
  match s with
  | none => pure none
  | some s =>
    if ← Session.allocate then pure (unescapeLoop false (cString s))
    else pure none

namespace Cmrg

open Session Xpcommands

/-- `CMRG_COMMAND_VERSION` -/
def commandVersion : ℕ := 1

/-- `cmrg_supported_options` -/
def supportedOptions : List String := ["monitor", "phase", "propagate"]

/-- `parse_monitor` -/
def parseMonitor (s : List UInt8) : Option CmrgMonitor :=
  if s = bytes "all" then some ⟨true, true⟩
  else if s = bytes "trigger" then some ⟨true, false⟩
  else if s = bytes "holdRelease" then some ⟨false, true⟩
  else none

/-- `parse_propagation` -/
def parsePropagation (s : List UInt8) : Option XpcommandPropagation :=
  if s = bytes "false" then some .stop
  else if s = bytes "true" then some .continues
  else none

/-- `parse_phase` -/
def parsePhase (s : List UInt8) : Option XpcommandPhase :=
  if s = bytes "before" then some .before
  else if s = bytes "after" then some .after
  else none

/-! ### The task schedule -/

/-- `schedule_task` for the phase before the flight model. -/
def scheduleTask (task : ℕ) : M CmrgMemory ErrorCode := do
  if ← destructionPending .schedule then pure .destructionPending
  else if ← Session.allocate then do
    updateMemory fun m => { m with queue := m.queue ++ [task] }
    pure .none
  else pure .unspecific

/-- `unschedule_task` for the phase before the flight model. -/
def unscheduleTask (task : Option ℕ) : M CmrgMemory ErrorCode := do
  match task with
  | none => pure .unspecific
  | some task => do
    let queue ← readMemory CmrgMemory.queue
    if task ∈ queue then do
      updateMemory fun m => { m with queue := m.queue.erase task }
      pure .none
    else pure .unspecific

/-! ### Life cycle -/

/-- Change a command in place. -/
def modifyCommand (ref : ℕ) (f : CommandCmrg → CommandCmrg) : M CmrgMemory Unit :=
  updateMemory fun m => { m with cmrg := Function.update m.cmrg ref ((m.cmrg ref).map f) }

/-- `cmrg_destroy` of a command: it is freed. -/
def destroy (ref : ℕ) : M CmrgMemory Unit :=
  updateMemory fun m => { m with cmrg := Function.update m.cmrg ref none }

/-- An exit of `cmrg_create` with an error message on the channel. -/
def reject (id : ChannelId) (text : String) : M CmrgMemory (ErrorCode × Option ℕ) := do
  let _ ← errorChannel id currentTimeReference (some (bytes text))
  pure (.unspecific, none)

/-- The label `error` of `cmrg_create`, reached with an error message on the channel. -/
def fail (ref : ℕ) (id : ChannelId) (text : String) : M CmrgMemory (ErrorCode × Option ℕ) := do
  let result ← reject id text
  destroy ref
  pure result

/-- The end of `cmrg_create`, from the allocation of the task on. -/
def createTask (ref : ℕ) (id : ChannelId) : M CmrgMemory (ErrorCode × Option ℕ) := do
  if ← Session.allocate then do
    let task ← newAddress
    let err ← locked .schedule (fun err => err) do
      let err ← scheduleTask task
      if err = .none then do
        modifyCommand ref fun command => { command with task := some task }
        pure err
      else pure err
    if err = .none then pure (.none, some ref)
    else do
      let _ ← fail ref id "failed to schedule task"
      pure (err, none)
  else do
    destroy ref
    pure (.memoryAllocation, none)

/-- The middle part of `cmrg_create`: the X-Plane command is prepared.  The first parameter is its
name, the second one its description. -/
def createProxy (ref : ℕ) (request : Request) (phase : XpcommandPhase)
    (propagate : XpcommandPropagation) : M CmrgMemory (ErrorCode × Option ℕ) := do
  match ← copyUnescapedString request.parameters[0]? with
  | none => fail ref request.channelId "command name is required"
  | some name => do
    -- without a second parameter the name, already unescaped, is unescaped once more
    match ← copyUnescapedString (some (request.parameters[1]?.getD name)) with
    | none => fail ref request.channelId "failed to copy command description"
    | some description =>
      if 2 < request.parameters.length then fail ref request.channelId "too many parameters"
      else do
        match ← createXpcommand name description phase propagate ref with
        | none => fail ref request.channelId "failed to prepare XP command"
        | some proxy => do
          modifyCommand ref fun command => { command with xpcmd := some proxy }
          createTask ref request.channelId

/-- `cmrg_create` -/
def create (request : Request) (version : ℕ) : M CmrgMemory (ErrorCode × Option ℕ) := do
  let id := request.channelId
  if version ≠ commandVersion then reject id "unexpected command version"
  else if request.hasOnlyOptions supportedOptions = false then reject id "unsupported options"
  else if ← Session.allocate then do
    let ref ← newAddress
    updateMemory fun m =>
      { m with
        cmrg := Function.update m.cmrg ref (some ⟨id, none, ⟨false, false⟩, none, false, false⟩) }
    match parseMonitor (request.getOption "monitor" "all") with
    | none => fail ref id "unsupported monitor option"
    | some monitor => do
      modifyCommand ref fun command => { command with monitor := monitor }
      match parsePhase (request.getOption "phase" "before") with
      | none => fail ref id "unsupported phase"
      | some phase =>
        match parsePropagation (request.getOption "propagate" "false") with
        | none => fail ref id "unsupported propagate option"
        | some propagate => createProxy ref request phase propagate
  else pure (.memoryAllocation, none)

/-- The end of `cmrg_terminate`, once the X-Plane command is dropped. -/
def unschedule (ref : ℕ) (command : CommandCmrg) : M CmrgMemory ErrorCode := do
  let err ← locked .schedule (fun err => err) do
    let err ← unscheduleTask command.task
    if err = .none then do
      modifyCommand ref fun command => { command with task := none }
      pure err
    else pure err
  if err = .none then do
    modifyCommand ref fun command => { command with channelId := badChannelId }
    modifyChannel command.channelId fun channel => { channel with destructionRequested := true }
    pure .none
  else pure err

/-- `cmrg_terminate` of an existing command. -/
def terminateCommand (ref : ℕ) (command : CommandCmrg) : M CmrgMemory ErrorCode := do
  -- the channel may have been closed before by an error; the result is ignored
  let _ ← finishChannel command.channelId currentTimeReference none
  let err ← dropXpcommand command.xpcmd -- does nothing without an X-Plane command
  if err = .none then unschedule ref command
  else pure err

/-- `cmrg_terminate` -/
def terminate (commandRef : Option ℕ) : M CmrgMemory ErrorCode := do
  match commandRef with
  | none => pure .unspecific
  | some ref =>
    match ← readMemory (CmrgMemory.cmrg · ref) with
    | none => pure .unspecific
    | some command => terminateCommand ref command

/-- The message `cmrg_handle_event` sends, if any. -/
def eventMessage (monitor : CmrgMonitor) : XplmCommandPhase → Option String
  | .continues => if monitor.trigger then some "TRIGGER" else none
  | .begins => if monitor.holdRelease then some "HOLD" else none
  | .ends => if monitor.holdRelease then some "RELEASE" else none
  | .other => none

/-- `command->failed = true` -/
def markFailed (ref : ℕ) : M CmrgMemory Unit :=
  modifyCommand ref fun command => { command with failed := true }

/-- `cmrg_handle_event` -/
def handleEvent (ref : ℕ) (xpPhase : XplmCommandPhase) : M CmrgMemory Unit := do
  match ← readMemory (CmrgMemory.cmrg · ref) with
  | none => pure ()
  | some command =>
    if command.failed then pure ()
    else
      match eventMessage command.monitor xpPhase with
      | none => if xpPhase = .other then markFailed ref else pure ()
      | some text => do
        let err ← continueChannel command.channelId currentTimeReference (some (bytes text))
        if err = .none then pure ()
        else do
          let _ ← errorChannel command.channelId currentTimeReference none
          markFailed ref

/-! ### Lock discipline -/

open Logged (Keeps)

theorem scheduleTask_calm (task : ℕ) : Keeps World.Calm (scheduleTask task) := by
  refine .bind (ask_calm _) fun _ => .ite (.pure _) (.bind (ask_calm _) fun _ => .ite ?_ (.pure _))
  exact .bind (updateMemory_calm _) fun _ => .pure _

theorem unscheduleTask_calm (task : Option ℕ) : Keeps World.Calm (unscheduleTask task) := by
  cases task with
  | none => exact .pure _
  | some task =>
    refine .bind (.read _) fun queue => .ite ?_ (.pure _)
    exact .bind (updateMemory_calm _) fun _ => .pure _

theorem reject_tidy (id : ChannelId) (text : String) : TidyOn id (reject id text) :=
  .bind (.message .error _ _) fun _ => .pure _

theorem fail_tidy (ref : ℕ) (id : ChannelId) (text : String) : TidyOn id (fail ref id text) :=
  .bind (reject_tidy id text) fun _ => .bind (.of_keeps (updateMemory_calm _)) fun _ => .pure _

theorem createTask_tidy (ref : ℕ) (id : ChannelId) : TidyOn id (createTask ref id) := by
  refine .bind (.of_keeps (ask_calm _)) fun _ => .ite ?_ ?_
  · refine .bind (.of_keeps newAddress_calm) fun task => .bind (.locked ?_) fun err => ?_
    · refine .bind (scheduleTask_calm task) fun err => .ite ?_ (.pure _)
      exact .bind (updateMemory_calm _) fun _ => .pure _
    · exact .ite (.pure _) (.bind (fail_tidy _ _ _) fun _ => .pure _)
  · exact .bind (.of_keeps (updateMemory_calm _)) fun _ => .pure _

theorem copyUnescapedString_calm (s : Option (List UInt8)) :
    Keeps World.Calm (copyUnescapedString s : M CmrgMemory (Option (List UInt8))) := by
  cases s with
  | none => exact .pure _
  | some s => exact .bind (ask_calm _) fun _ => .ite (.pure _) (.pure _)

theorem createProxy_tidy (ref : ℕ) (request : Request) (phase : XpcommandPhase)
    (propagate : XpcommandPropagation) :
    TidyOn request.channelId (createProxy ref request phase propagate) := by
  refine .bind (.of_keeps (copyUnescapedString_calm _)) fun name => ?_
  cases name with
  | none => exact fail_tidy _ _ _
  | some name =>
    refine .bind (.of_keeps (copyUnescapedString_calm _)) fun description => ?_
    cases description with
    | none => exact fail_tidy _ _ _
    | some description =>
      refine .ite (fail_tidy _ _ _) (.bind (createXpcommand_tidy _ _ _ _ _) fun proxy => ?_)
      cases proxy with
      | none => exact fail_tidy _ _ _
      | some proxy =>
        exact .bind (.of_keeps (updateMemory_calm _)) fun _ => createTask_tidy _ _

theorem create_tidy (request : Request) (version : ℕ) :
    TidyOn request.channelId (create request version) := by
  refine .ite (reject_tidy _ _) (.ite (reject_tidy _ _) ?_)
  refine .bind (.of_keeps (ask_calm _)) fun _ => .ite ?_ (.pure _)
  refine .bind (.of_keeps newAddress_calm) fun ref =>
    .bind (.of_keeps (updateMemory_calm _)) fun _ => ?_
  cases parseMonitor (request.getOption "monitor" "all") with
  | none => exact fail_tidy _ _ _
  | some monitor =>
    refine .bind (.of_keeps (updateMemory_calm _)) fun _ => ?_
    cases parsePhase (request.getOption "phase" "before") with
    | none => exact fail_tidy _ _ _
    | some phase =>
      cases parsePropagation (request.getOption "propagate" "false") with
      | none => exact fail_tidy _ _ _
      | some propagate => exact createProxy_tidy _ _ _ _

theorem unschedule_tidy (ref : ℕ) (command : CommandCmrg) (id : ChannelId) :
    TidyOn id (unschedule ref command) := by
  refine .bind (.locked ?_) fun err => .ite ?_ (.pure _)
  · refine .bind (unscheduleTask_calm _) fun err => .ite ?_ (.pure _)
    exact .bind (updateMemory_calm _) fun _ => .pure _
  · refine .bind (.of_keeps (updateMemory_calm _)) fun _ => ?_
    exact .bind (.of_frame (modifyChannel_keeps _ _)) fun _ => .pure _

theorem terminateCommand_tidy (ref : ℕ) (command : CommandCmrg) :
    TidyOn command.channelId (terminateCommand ref command) := by
  refine .bind (.message .finish _ _) fun _ => .bind (dropXpcommand_tidy _) fun err => ?_
  exact .ite (unschedule_tidy ref command _) (.pure _)

end Cmrg

/-- The commands with CMRG as it is, the others being given. -/
def cmrgCommands (others : Commands CmrgMemory) : Commands CmrgMemory where
  create command request version :=
    if command = .cmrg then Cmrg.create request version else others.create command request version
  terminate command ref :=
    if command = .cmrg then Cmrg.terminate ref else others.terminate command ref
  channelOf memory command ref :=
    if command = .cmrg then (memory.cmrg ref).map CommandCmrg.channelId
    else others.channelOf memory command ref
  create_tidy command request version := by
    by_cases h : command = .cmrg
    · simp only [h, ↓reduceIte]
      exact Cmrg.create_tidy request version
    · simp only [h, ↓reduceIte]
      exact others.create_tidy command request version
  terminate_orderly command ref w hw hrem := by
    by_cases h : command = .cmrg
    · simp only [h, ↓reduceIte] at hrem ⊢
      cases ref with
      | none => exact .pure _ w
      | some ref =>
        obtain ⟨id, hid, hchannel⟩ := hrem ref rfl
        obtain ⟨found, hfound, rfl⟩ := Option.map_eq_some_iff.1 hid
        have hrun : (Cmrg.terminate (some ref)).run w =
            (Cmrg.terminateCommand ref found).run w := by
          simp [Cmrg.terminate, Xpcommands.readMemory, hfound]
        rw [hrun]
        exact (Cmrg.terminateCommand_tidy ref found w hw hchannel).toOrderly
    · simp only [h, ↓reduceIte] at hrem ⊢
      exact others.terminate_orderly command ref w hw hrem

end XprcServer
