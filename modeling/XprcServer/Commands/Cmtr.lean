import XprcServer.Commands.Holding
import XprcServer.Commands.Port

/-!
# The command CMTR

`command_cmtr.c`: CMTR holds or triggers X-Plane commands, once or again and again.  Its task looks
them up in the first flight loop.  From then on it starts a cycle whenever the interval has passed,
and releases what it holds when the duration has passed or the next cycle starts.  Termination
queues the release of what is still held.

The interval and the duration are counted in frames or in milliseconds of session time; `now` is the
result of `millis_since_reference`, which is negative if the time is not known.
-/

namespace XprcServer

open Lib

/-- `cmtr_monitor_mode_t`; `CMTR_INVALID` is refused by `cmtr_create` -/
inductive CmtrMonitorMode where
  | holdRelease
  | cycle
  | disable
  deriving DecidableEq, Repr

/-- `cmtr_action_t` -/
inductive CmtrAction where
  | holdOrTrigger
  | release
  deriving DecidableEq, Repr

/-- `command_cmtr_t`; the session is the one of the port the command works on. -/
structure CommandCmtr where
  channelId : ChannelId
  task : Option ℕ
  monitorMode : CmtrMonitorMode
  requiresTime : Bool
  interval : ℤ
  intervalDueTime : ℤ
  intervalRemainingFrames : ℤ
  isIntervalFrames : Bool
  duration : ℤ
  durationDueTime : ℤ
  durationRemainingFrames : ℤ
  isDurationFrames : Bool
  timesRemaining : ℤ
  initialized : Bool
  failed : Bool
  finishing : Bool
  holding : Bool
  entries : List HoldEntry
  deriving DecidableEq, Repr

namespace Cmtr

/-- `CMTR_TASK_PHASE` -/
def taskPhase : TaskSchedulePhase := .beforeFlightModel

/-- The command and what it works on. -/
structure State where
  command : CommandCmtr
  port : Port
  xp : XpSide

namespace State

/-- A message on the channel of the command. -/
def send (s : State) (call : ChannelCall) (text : Option String) : State :=
  { s with
    port := s.port.send call s.command.channelId currentTimeReference (text.map bytes) }

/-- Change the command, but neither what it holds nor its task. -/
def modify (s : State) (f : CommandCmtr → CommandCmtr) : State := { s with command := f s.command }

end State

/-! ### Termination -/

/-- `cmtr_unschedule` -/
def unschedule (lock : ErrorCode) (s : State) : ErrorCode × State :=
  let r := s.port.unschedule lock s.command.task taskPhase
  (r.1, { s with port := r.2.2, command := { s.command with task := r.2.1 } })

/-- `cmtr_terminate`; `lock` is the result of `lock_schedule`. -/
def terminate (lock : ErrorCode) (env : HoldEntry.ReleaseEnv) (s : State) : ErrorCode × State :=
  -- the channel may have been closed before; the result is ignored
  let r := unschedule lock (s.send .finish none)
  let s := r.2
  if r.1 ≠ .none then (r.1, s)
  else
    let r := HoldEntry.releaseAll env (fun entry => some { entry with held := false })
      s.command.entries s.xp
    let s := { s with xp := r.2.2, command := { s.command with entries := r.1 } }
    if 0 < r.2.1 then (.unspecific, s)
    else
      (.none, { s with
        command := { s.command with channelId := badChannelId }
        port := s.port.requestChannelDestruction s.command.channelId })

/-! ### Flight loop -/

/-- `cmtr_initialize`; `confirm` is the result of `confirm_channel`. -/
def initializeCommand (findCommand : List UInt8 → Option ℕ) (confirm : ErrorCode) (s : State) :
    Bool × State :=
  let r := HoldEntry.findAll findCommand s.command.entries
  let s := s.modify fun command => { command with entries := r.1 }
  if !r.2 then
    (false, (s.modify fun command => { command with failed := true }).send .error
      (some "XP command not found"))
  else
    let s := s.send .confirm none
    if confirm ≠ .none then (false, s.modify fun command => { command with failed := true })
    else (true, s.modify fun command => { command with initialized := true })

/-- `notify_channel` -/
def notifyChannel (action : CmtrAction) (mayClose : Bool) (s : State) : State :=
  let mode := s.command.monitorMode
  if !(mode = .holdRelease || (action = .holdOrTrigger && mode ≠ .disable)) then s
  else
    match action with
    | .holdOrTrigger =>
      if mode = .cycle then s.send (if mayClose then .finish else .continues) (some "CYCLE")
      -- final messages can only be CYCLE or RELEASE
      else s.send .continues (some "HOLD")
    | .release => s.send (if mayClose then .finish else .continues) (some "RELEASE")

/-- `release_all_held_xprefs` -/
def releaseAllHeldXprefs (isLastAction : Bool) (s : State) : State :=
  let s := notifyChannel .release isLastAction s
  let r := HoldEntry.forAllXprefsReversed .commandEnd false true s.command.entries s.xp
  { s with xp := r.2, command := { s.command with entries := r.1, holding := false } }

/-- `hold_all_xprefs` -/
def holdAllXprefs (s : State) : State :=
  let s := s.modify fun command => { command with holding := true }
  let s := notifyChannel .holdOrTrigger false s
  let r := HoldEntry.forAllXprefs .commandBegin true false s.command.entries s.xp
  { s with xp := r.2, command := { s.command with entries := r.1 } }

/-- `trigger_all_xprefs` -/
def triggerAllXprefs (isLastAction : Bool) (s : State) : State :=
  if s.command.holding then s
  else
    let s := notifyChannel .holdOrTrigger isLastAction s
    let r := HoldEntry.forAllXprefs .commandOnce false false s.command.entries s.xp
    notifyChannel .release isLastAction
      { s with xp := r.2, command := { s.command with entries := r.1 } }

/-- The loop that forwards `interval_due_time` past `now`, as `interval` is positive; every round
adds at least one, so that `fuel` rounds from `now - due < fuel` on are enough. -/
def forwardLoop (now interval : ℤ) : ℕ → ℤ → ℤ
  | 0, due => due
  | fuel + 1, due => if due ≤ now then forwardLoop now interval fuel (due + interval) else due

/-- The part of `cmtr_process_flightloop` that decides whether a cycle starts: the frames are
counted, and if a cycle starts the interval starts anew. -/
def checkInterval (now : ℤ) (shouldHold : Bool) (command : CommandCmtr) : Bool × CommandCmtr :=
  if command.isIntervalFrames then
    let remaining := command.intervalRemainingFrames - 1
    let shouldHold := shouldHold || remaining ≤ 0
    (shouldHold, { command with
      intervalRemainingFrames := if shouldHold then command.interval else remaining })
  else
    let shouldHold := shouldHold || command.intervalDueTime ≤ now
    (shouldHold, { command with
      intervalDueTime :=
        if shouldHold then
          forwardLoop now command.interval ((now - command.intervalDueTime).toNat + 1)
            command.intervalDueTime
        else command.intervalDueTime })

/-- The part of `cmtr_process_flightloop` that decides whether what is held is released: before the
next cycle, or because the duration has passed. -/
def checkDuration (now : ℤ) (shouldHold : Bool) (command : CommandCmtr) : Bool × CommandCmtr :=
  if shouldHold && command.holding then (true, command)
  else if command.holding && 0 < command.duration then
    if command.isDurationFrames then
      let remaining := command.durationRemainingFrames - 1
      (remaining ≤ 0, { command with durationRemainingFrames := remaining })
    else (command.durationDueTime ≤ now, command)
  else (false, command)

/-- The part of `cmtr_process_flightloop` that makes an action the last one. -/
def finishIfLast (s : State) : State :=
  if s.command.timesRemaining = 0 then s.modify fun command => { command with finishing := true }
  else s

/-- The part of `cmtr_process_flightloop` that releases what is held. -/
def releaseBefore (s : State) : State :=
  let s := finishIfLast s
  releaseAllHeldXprefs s.command.finishing s

/-- The part of `cmtr_process_flightloop` that counts the cycles. -/
def countCycle (s : State) : State :=
  if 0 < s.command.timesRemaining then
    s.modify fun command => { command with timesRemaining := command.timesRemaining - 1 }
  else s

/-- The part of `cmtr_process_flightloop` that restarts the duration. -/
def restartDuration (now : ℤ) (s : State) : State :=
  if s.command.isDurationFrames then
    s.modify fun command => { command with durationRemainingFrames := command.duration }
  else s.modify fun command => { command with durationDueTime := now + command.duration }

/-- The end of `cmtr_process_flightloop`: a cycle starts. -/
def startCycle (now : ℤ) (s : State) : State :=
  let s := countCycle s
  if 0 < s.command.duration then holdAllXprefs (restartDuration now s)
  else
    let s := finishIfLast s
    triggerAllXprefs s.command.finishing s

/-- `cmtr_process_flightloop` of a command that is initialized; `shouldHold` says that this happened
just now. -/
def runCycle (now : ℤ) (shouldHold : Bool) (s : State) : State :=
  let interval := checkInterval now shouldHold s.command
  let duration := checkDuration now interval.1 interval.2
  let s := { s with command := duration.2 }
  let s := if duration.1 then releaseBefore s else s
  if interval.1 then startCycle now s else s

/-- `cmtr_process_flightloop` -/
def processFlightloop (millisSinceReference : ℤ) (findCommand : List UInt8 → Option ℕ)
    (confirm : ErrorCode) (s : State) : State :=
  if s.command.failed || s.command.finishing then s
  else if s.command.requiresTime && millisSinceReference < 0 then s
  else
    let now := if s.command.requiresTime then millisSinceReference else 0
    if s.command.initialized then runCycle now false s
    else
      let r := initializeCommand findCommand confirm s
      if r.1 then runCycle now true r.2 else r.2

/-- `cmtr_process_post`; the result is that of `cmtr_terminate`, if it is called. -/
def processPost (lock : ErrorCode) (env : HoldEntry.ReleaseEnv) (s : State) :
    Option ErrorCode × State :=
  if s.command.failed || s.command.finishing then
    let r := terminate lock env s
    (some r.1, r.2)
  else (none, s)

/-! ### What a flight loop does -/

section

variable {s s' : State}

/-- The two states agree on everything that decides what is held. -/
structure Agrees (s s' : State) : Prop where
  entries : s'.command.entries = s.command.entries
  holding : s'.command.holding = s.command.holding
  task : s'.command.task = s.command.task
  initialized : s'.command.initialized = s.command.initialized
  xp : s'.xp = s.xp

/-- Neither the channel nor the task of the command is touched. -/
structure Quiet (s s' : State) : Prop where
  channelId : s'.command.channelId = s.command.channelId
  task : s'.command.task = s.command.task
  queues : s'.port.queues = s.port.queues
  channels : s'.port.channels = s.port.channels

theorem Quiet.refl (s : State) : Quiet s s := ⟨rfl, rfl, rfl, rfl⟩

theorem Quiet.trans {s'' : State} (h : Quiet s s') (h' : Quiet s' s'') : Quiet s s'' :=
  ⟨h'.channelId.trans h.channelId, h'.task.trans h.task, h'.queues.trans h.queues,
    h'.channels.trans h.channels⟩

/-- Only counters, flags and messages differ. -/
structure Adjusts (s s' : State) : Prop where
  agrees : Agrees s s'
  quiet : Quiet s s'

theorem Adjusts.refl (s : State) : Adjusts s s := ⟨⟨rfl, rfl, rfl, rfl, rfl⟩, .refl s⟩

theorem adjusts_send (call : ChannelCall) (text : Option String) (s : State) :
    Adjusts s (s.send call text) := ⟨⟨rfl, rfl, rfl, rfl, rfl⟩, ⟨rfl, rfl, rfl, rfl⟩⟩

theorem adjusts_notifyChannel (action : CmtrAction) (mayClose : Bool) (s : State) :
    Adjusts s (notifyChannel action mayClose s) := by
  unfold notifyChannel
  dsimp only
  by_cases hsilent : (!(decide (s.command.monitorMode = .holdRelease) ||
      decide (action = .holdOrTrigger) && decide (s.command.monitorMode ≠ .disable))) = true
  · rw [if_pos hsilent]
    exact .refl s
  · rw [if_neg hsilent]
    cases action with
    | holdOrTrigger =>
      dsimp only
      split
      · exact adjusts_send _ _ s
      · exact adjusts_send _ _ s
    | release => exact adjusts_send _ _ s

theorem adjusts_finishIfLast (s : State) : Adjusts s (finishIfLast s) := by
  unfold finishIfLast
  split
  · exact ⟨⟨rfl, rfl, rfl, rfl, rfl⟩, ⟨rfl, rfl, rfl, rfl⟩⟩
  · exact .refl s

theorem adjusts_countCycle (s : State) : Adjusts s (countCycle s) := by
  unfold countCycle
  split
  · exact ⟨⟨rfl, rfl, rfl, rfl, rfl⟩, ⟨rfl, rfl, rfl, rfl⟩⟩
  · exact .refl s

theorem adjusts_restartDuration (now : ℤ) (s : State) : Adjusts s (restartDuration now s) := by
  unfold restartDuration
  split <;> exact ⟨⟨rfl, rfl, rfl, rfl, rfl⟩, ⟨rfl, rfl, rfl, rfl⟩⟩

theorem adjusts_checkInterval (now : ℤ) (shouldHold : Bool) (s : State) :
    Adjusts s { s with command := (checkInterval now shouldHold s.command).2 } := by
  unfold checkInterval
  split <;> exact ⟨⟨rfl, rfl, rfl, rfl, rfl⟩, ⟨rfl, rfl, rfl, rfl⟩⟩

theorem adjusts_checkDuration (now : ℤ) (shouldHold : Bool) (s : State) :
    Adjusts s { s with command := (checkDuration now shouldHold s.command).2 } := by
  unfold checkDuration
  split_ifs <;> exact ⟨⟨rfl, rfl, rfl, rfl, rfl⟩, ⟨rfl, rfl, rfl, rfl⟩⟩

/-- What is held is released before the next cycle. -/
theorem checkDuration_of_holding (now : ℤ) {command : CommandCmtr}
    (hholding : command.holding = true) :
    (checkDuration now true command).1 = true := by
  simp [checkDuration, hholding]

theorem releaseAllHeldXprefs_quiet (isLastAction : Bool) (s : State) :
    Quiet s (releaseAllHeldXprefs isLastAction s) :=
  (adjusts_notifyChannel .release isLastAction s).quiet.trans ⟨rfl, rfl, rfl, rfl⟩

theorem holdAllXprefs_quiet (s : State) : Quiet s (holdAllXprefs s) := by
  have hfirst : Quiet s (s.modify fun command => { command with holding := true }) :=
    ⟨rfl, rfl, rfl, rfl⟩
  exact (hfirst.trans (adjusts_notifyChannel .holdOrTrigger false _).quiet).trans
    ⟨rfl, rfl, rfl, rfl⟩

theorem triggerAllXprefs_quiet (isLastAction : Bool) (s : State) :
    Quiet s (triggerAllXprefs isLastAction s) := by
  unfold triggerAllXprefs
  split
  · exact .refl s
  · refine Quiet.trans ?_ (adjusts_notifyChannel .release isLastAction _).quiet
    exact (adjusts_notifyChannel .holdOrTrigger isLastAction s).quiet.trans ⟨rfl, rfl, rfl, rfl⟩

theorem releaseBefore_quiet (s : State) : Quiet s (releaseBefore s) :=
  (adjusts_finishIfLast s).quiet.trans (releaseAllHeldXprefs_quiet _ _)

theorem startCycle_quiet (now : ℤ) (s : State) : Quiet s (startCycle now s) := by
  refine (adjusts_countCycle s).quiet.trans ?_
  unfold startCycle
  dsimp only
  split
  · exact (adjusts_restartDuration now _).quiet.trans (holdAllXprefs_quiet _)
  · exact (adjusts_finishIfLast _).quiet.trans (triggerAllXprefs_quiet _ _)

theorem runCycle_quiet (now : ℤ) (shouldHold : Bool) (s : State) :
    Quiet s (runCycle now shouldHold s) := by
  refine (adjusts_checkInterval now shouldHold s).quiet.trans ?_
  refine (adjusts_checkDuration now (checkInterval now shouldHold s.command).1 _).quiet.trans ?_
  unfold runCycle
  dsimp only
  by_cases hrelease : (checkDuration now (checkInterval now shouldHold s.command).1
      (checkInterval now shouldHold s.command).2).1 = true
  · rw [if_pos hrelease]
    refine (releaseBefore_quiet _).trans ?_
    split
    · exact startCycle_quiet _ _
    · exact .refl _
  · rw [if_neg hrelease]
    split
    · exact startCycle_quiet _ _
    · exact .refl _

theorem initializeCommand_quiet (findCommand : List UInt8 → Option ℕ) (confirm : ErrorCode)
    (s : State) : Quiet s (initializeCommand findCommand confirm s).2 := by
  unfold initializeCommand
  dsimp only
  split_ifs <;> exact ⟨rfl, rfl, rfl, rfl⟩

theorem processFlightloop_quiet (millis : ℤ) (findCommand : List UInt8 → Option ℕ)
    (confirm : ErrorCode) (s : State) :
    Quiet s (processFlightloop millis findCommand confirm s) := by
  unfold processFlightloop
  dsimp only
  split
  · exact .refl s
  split
  · exact .refl s
  split
  · exact runCycle_quiet _ _ _
  refine (initializeCommand_quiet findCommand confirm s).trans ?_
  split
  · exact runCycle_quiet _ _ _
  · exact .refl _

/-! ### What is held -/

/-- A command whose task is scheduled holds all of its entries or none, and holds them only if they
are known. -/
structure Running (s : State) : Prop where
  uniform : ∀ entry ∈ s.command.entries, entry.held = s.command.holding
  idle : s.command.initialized = false → s.command.holding = false
  known : s.command.initialized = true → ∀ entry ∈ s.command.entries, entry.xpRef ≠ none

/-- The entries say what X-Plane holds. -/
structure Sound (s : State) : Prop where
  tracks : HoldEntry.Tracks (s.command.task ≠ none) s.command.entries s.xp
  running : s.command.task ≠ none → Running s

theorem Sound.agrees (h : Sound s) (hs : Agrees s s') : Sound s' := by
  constructor
  · rw [hs.task, hs.entries, hs.xp]
    exact h.tracks
  · intro htask
    rw [hs.task] at htask
    obtain ⟨huniform, hidle, hknown⟩ := h.running htask
    constructor
    · rw [hs.entries, hs.holding]
      exact huniform
    · rw [hs.initialized, hs.holding]
      exact hidle
    · rw [hs.initialized, hs.entries]
      exact hknown

theorem releaseAllHeldXprefs_sound (h : Sound s) (isLastAction : Bool) :
    Sound (releaseAllHeldXprefs isLastAction s) ∧
      (releaseAllHeldXprefs isLastAction s).command.holding = false ∧
      (releaseAllHeldXprefs isLastAction s).command.initialized = s.command.initialized := by
  have hagrees := (adjusts_notifyChannel .release isLastAction s).agrees
  have hnotified := h.agrees hagrees
  refine ⟨⟨hnotified.tracks.forAllXprefsReversed_end,
    fun htask => ⟨?_, fun _ => rfl, fun hinit => ?_⟩⟩, rfl, hagrees.initialized⟩
  · intro entry hentry
    change entry ∈ (HoldEntry.forAllXprefsReversed _ _ _ _ _).1 at hentry
    rw [HoldEntry.forAllXprefsReversed_fst] at hentry
    obtain ⟨entry', -, rfl⟩ := List.mem_map.1 hentry
    rfl
  · intro entry hentry
    change entry ∈ (HoldEntry.forAllXprefsReversed _ _ _ _ _).1 at hentry
    rw [HoldEntry.forAllXprefsReversed_fst] at hentry
    obtain ⟨entry', hentry', rfl⟩ := List.mem_map.1 hentry
    exact (hnotified.running htask).known hinit entry' hentry'

theorem holdAllXprefs_sound (h : Sound s) (htask : s.command.task ≠ none)
    (hinit : s.command.initialized = true) (hholding : s.command.holding = false) :
    Sound (holdAllXprefs s) := by
  obtain ⟨huniform, -, hknown⟩ := h.running htask
  set s₁ := s.modify fun command => { command with holding := true } with hs₁
  have hagrees := (adjusts_notifyChannel .holdOrTrigger false s₁).agrees
  have hentries : (notifyChannel .holdOrTrigger false s₁).command.entries = s.command.entries :=
    hagrees.entries
  have hxp : (notifyChannel .holdOrTrigger false s₁).xp = s.xp := hagrees.xp
  have htask₁ : (notifyChannel .holdOrTrigger false s₁).command.task = s.command.task :=
    hagrees.task
  have hnone : ∀ entry ∈ s.command.entries, entry.held = false := by
    intro entry hentry
    rw [huniform entry hentry, hholding]
  have htracks := h.tracks.forAllXprefs_begin htask hnone (hknown hinit)
  have hheld : (holdAllXprefs s).command.entries =
      s.command.entries.map fun entry => { entry with held := true } := by
    change (HoldEntry.forAllXprefs _ _ _ _ _).1 = _
    rw [HoldEntry.forAllXprefs_fst, hentries]
  refine ⟨?_, fun _ => ⟨?_, fun huninit => ?_, fun _ => ?_⟩⟩
  · change HoldEntry.Tracks ((notifyChannel .holdOrTrigger false s₁).command.task ≠ none)
      (HoldEntry.forAllXprefs _ _ _ (notifyChannel .holdOrTrigger false s₁).command.entries
        (notifyChannel .holdOrTrigger false s₁).xp).1
      (HoldEntry.forAllXprefs _ _ _ (notifyChannel .holdOrTrigger false s₁).command.entries
        (notifyChannel .holdOrTrigger false s₁).xp).2
    rw [hentries, hxp, htask₁]
    exact htracks
  · intro entry hentry
    rw [hheld] at hentry
    obtain ⟨entry', -, rfl⟩ := List.mem_map.1 hentry
    exact hagrees.holding.symm
  · have hinit' : (holdAllXprefs s).command.initialized = s.command.initialized :=
      hagrees.initialized
    rw [hinit', hinit] at huninit
    cases huninit
  · intro entry hentry
    rw [hheld] at hentry
    obtain ⟨entry', hentry', rfl⟩ := List.mem_map.1 hentry
    exact hknown hinit entry' hentry'

theorem triggerAllXprefs_sound (h : Sound s) (htask : s.command.task ≠ none) (isLastAction : Bool) :
    Sound (triggerAllXprefs isLastAction s) := by
  unfold triggerAllXprefs
  split
  · exact h
  · rename_i hholding
    have hagrees := (adjusts_notifyChannel .holdOrTrigger isLastAction s).agrees
    have hsound := h.agrees hagrees
    obtain ⟨huniform, hidle, hknown⟩ := hsound.running (by rw [hagrees.task]; exact htask)
    have hnone : ∀ entry ∈ (notifyChannel .holdOrTrigger isLastAction s).command.entries,
        entry.held = false := by
      intro entry hentry
      rw [huniform entry hentry, hagrees.holding]
      simpa using hholding
    refine Sound.agrees ?_ (adjusts_notifyChannel .release isLastAction _).agrees
    refine ⟨hsound.tracks.forAllXprefs_once hnone, fun _ => ⟨?_, hidle, fun hinit => ?_⟩⟩
    · intro entry hentry
      change entry ∈ (HoldEntry.forAllXprefs _ _ _ _ _).1 at hentry
      rw [HoldEntry.forAllXprefs_fst] at hentry
      obtain ⟨entry', -, rfl⟩ := List.mem_map.1 hentry
      exact (Bool.eq_false_iff.2 hholding).symm.trans hagrees.holding.symm
    · intro entry hentry
      change entry ∈ (HoldEntry.forAllXprefs _ _ _ _ _).1 at hentry
      rw [HoldEntry.forAllXprefs_fst] at hentry
      obtain ⟨entry', hentry', rfl⟩ := List.mem_map.1 hentry
      exact hknown hinit entry' hentry'

theorem releaseBefore_sound (h : Sound s) :
    Sound (releaseBefore s) ∧ (releaseBefore s).command.holding = false ∧
      (releaseBefore s).command.initialized = s.command.initialized := by
  have hagrees := (adjusts_finishIfLast s).agrees
  obtain ⟨hsound, hholding, hinit⟩ :=
    releaseAllHeldXprefs_sound (h.agrees hagrees) (finishIfLast s).command.finishing
  exact ⟨hsound, hholding, hinit.trans hagrees.initialized⟩

theorem startCycle_sound (h : Sound s) (htask : s.command.task ≠ none)
    (hinit : s.command.initialized = true) (hholding : s.command.holding = false) (now : ℤ) :
    Sound (startCycle now s) := by
  have hcount := (adjusts_countCycle s).agrees
  unfold startCycle
  dsimp only
  split
  · have hrestart := (adjusts_restartDuration now (countCycle s)).agrees
    refine holdAllXprefs_sound ((h.agrees hcount).agrees hrestart) ?_ ?_ ?_
    · rw [hrestart.task, hcount.task]
      exact htask
    · rw [hrestart.initialized, hcount.initialized]
      exact hinit
    · rw [hrestart.holding, hcount.holding]
      exact hholding
  · have hfinish := (adjusts_finishIfLast (countCycle s)).agrees
    refine triggerAllXprefs_sound ((h.agrees hcount).agrees hfinish) ?_ _
    rw [hfinish.task, hcount.task]
    exact htask

theorem runCycle_sound (h : Sound s) (htask : s.command.task ≠ none)
    (hinit : s.command.initialized = true) (now : ℤ) (shouldHold : Bool) :
    Sound (runCycle now shouldHold s) := by
  set interval := checkInterval now shouldHold s.command with hinterval
  set duration := checkDuration now interval.1 interval.2 with hduration
  have hcheck₁ := (adjusts_checkInterval now shouldHold s).agrees
  have hcheck₂ := (adjusts_checkDuration now interval.1 { s with command := interval.2 }).agrees
  have hsound : Sound { s with command := duration.2 } := (h.agrees hcheck₁).agrees hcheck₂
  have htask₂ : duration.2.task ≠ none := by
    rw [hcheck₂.task, hcheck₁.task]
    exact htask
  have hinit₂ : duration.2.initialized = true := by
    rw [hcheck₂.initialized, hcheck₁.initialized]
    exact hinit
  obtain ⟨hreleased, hreleasedHolding, hreleasedInit⟩ := releaseBefore_sound hsound
  unfold runCycle
  dsimp only
  rw [← hinterval, ← hduration]
  by_cases hrelease : duration.1 = true
  · rw [if_pos hrelease]
    split
    · refine startCycle_sound hreleased ?_ (hreleasedInit.trans hinit₂) hreleasedHolding now
      rw [(releaseBefore_quiet _).task]
      exact htask₂
    · exact hreleased
  · rw [if_neg hrelease]
    split
    · rename_i hhold
      -- without a release nothing was held when the cycle starts
      refine startCycle_sound hsound htask₂ hinit₂ ?_ now
      rw [hcheck₂.holding]
      by_contra hholding
      refine hrelease ?_
      rw [hduration, hhold]
      exact checkDuration_of_holding now (by simpa using hholding)
    · exact hsound

theorem initializeCommand_sound (h : Sound s) (htask : s.command.task ≠ none)
    (hinit : s.command.initialized = false) (findCommand : List UInt8 → Option ℕ)
    (confirm : ErrorCode) :
    Sound (initializeCommand findCommand confirm s).2 ∧
      ((initializeCommand findCommand confirm s).1 = true →
        (initializeCommand findCommand confirm s).2.command.initialized = true) := by
  obtain ⟨huniform, hidle, -⟩ := h.running htask
  have hholding := hidle hinit
  have hnone : ∀ entry ∈ s.command.entries, entry.held = false := by
    intro entry hentry
    rw [huniform entry hentry, hholding]
  obtain ⟨htracks, hfound⟩ := h.tracks.findAll hnone findCommand
  have hheld : ∀ entry ∈ (HoldEntry.findAll findCommand s.command.entries).1,
      entry.held = s.command.holding := by
    intro entry hentry
    rw [hfound entry hentry, hholding]
  have huninit : ∀ {P : Prop}, s.command.initialized = true → P := by
    intro P htrue
    rw [hinit] at htrue
    cases htrue
  unfold initializeCommand
  dsimp only
  split_ifs with hmissing hconfirm
  · exact ⟨⟨htracks, fun _ => ⟨hheld, hidle, huninit⟩⟩, fun himpossible => nomatch himpossible⟩
  · exact ⟨⟨htracks, fun _ => ⟨hheld, hidle, huninit⟩⟩, fun himpossible => nomatch himpossible⟩
  · refine ⟨⟨htracks, fun _ => ⟨hheld, fun _ => hholding, fun _ => ?_⟩⟩, fun _ => rfl⟩
    exact HoldEntry.findAll_found (by simpa using hmissing)

/-- A flight loop keeps the entries in step with X-Plane. -/
theorem processFlightloop_sound (h : Sound s) (htask : s.command.task ≠ none) (millis : ℤ)
    (findCommand : List UInt8 → Option ℕ) (confirm : ErrorCode) :
    Sound (processFlightloop millis findCommand confirm s) := by
  have hready : s.command.initialized = false → ∀ now,
      Sound (if (initializeCommand findCommand confirm s).1 then
        runCycle now true (initializeCommand findCommand confirm s).2
        else (initializeCommand findCommand confirm s).2) := by
    intro hinit now
    obtain ⟨hsound, hdone⟩ := initializeCommand_sound h htask hinit findCommand confirm
    split_ifs with hok
    · refine runCycle_sound hsound ?_ (hdone hok) now true
      rw [(initializeCommand_quiet findCommand confirm s).task]
      exact htask
    · exact hsound
  unfold processFlightloop
  dsimp only
  by_cases hstopped : (s.command.failed || s.command.finishing) = true
  · rw [if_pos hstopped]
    exact h
  · rw [if_neg hstopped]
    by_cases htime : (s.command.requiresTime && decide (millis < 0)) = true
    · rw [if_pos htime]
      exact h
    · rw [if_neg htime]
      cases hinit : s.command.initialized with
      | true => exact runCycle_sound h htask hinit _ false
      | false => exact hready hinit _

theorem keeps_released : HoldEntry.Keeps fun entry => some { entry with held := false } := by
  intro entry kept hkept
  cases hkept
  exact ⟨rfl, rfl⟩

/-- `cmtr_terminate` keeps the entries in step with X-Plane; if it succeeds, the task is gone and
nothing is held any more. -/
theorem terminate_sound {t : ℕ} (h : Sound s)
    (hschedules : s.port.Schedules t taskPhase s.command.task)
    (lock : ErrorCode) (env : HoldEntry.ReleaseEnv) :
    Sound (terminate lock env s).2 ∧
      (terminate lock env s).2.port.Schedules t taskPhase (terminate lock env s).2.command.task ∧
      ((terminate lock env s).1 = .none → (terminate lock env s).2.command.task = none ∧
        HoldEntry.heldAddresses (terminate lock env s).2.command.entries = []) := by
  have hsent : (s.send .finish none).port.Schedules t taskPhase s.command.task := hschedules
  obtain ⟨hport, hgone, hkept, -⟩ := hsent.unschedule lock
  set r := (s.send .finish none).port.unschedule lock s.command.task taskPhase with hr
  have hrun : unschedule lock (s.send .finish none) =
      (r.1, { s with port := r.2.2, command := { s.command with task := r.2.1 } }) := rfl
  unfold terminate
  dsimp only
  rw [hrun]
  by_cases hfailed : r.1 ≠ .none
  · -- the task could not be unscheduled: nothing has changed but the messages
    rw [if_pos hfailed]
    have hsame : r.2.1 = s.command.task := congrArg Prod.fst (hkept hfailed)
    refine ⟨h.agrees ⟨rfl, rfl, hsame, rfl, rfl⟩, hport, fun hnone => absurd hnone hfailed⟩
  · rw [if_neg hfailed]
    have htask : r.2.1 = none := hgone (not_not.1 hfailed)
    have htracks : HoldEntry.Tracks (r.2.1 ≠ none) s.command.entries s.xp :=
      h.tracks.mono fun hsome => absurd htask hsome
    have hreleased := htracks.releaseAll keeps_released (not_not.2 htask) env
    have hcount := HoldEntry.releaseAll_failed env keeps_released s.command.entries s.xp
    split
    · exact ⟨⟨hreleased, fun hsome => absurd htask hsome⟩, hport,
        fun himpossible => nomatch himpossible⟩
    · rename_i hnofail
      refine ⟨⟨hreleased, fun hsome => absurd htask hsome⟩, hport, fun _ => ⟨htask, ?_⟩⟩
      exact List.length_eq_zero_iff.1 (hcount.symm.trans (Nat.eq_zero_of_not_pos hnofail))

theorem terminate_idle (lock : ErrorCode) (env : HoldEntry.ReleaseEnv)
    (h : s.command.task = none ∧ HoldEntry.heldAddresses s.command.entries = []) :
    (terminate lock env s).2.command.task = none ∧
      HoldEntry.heldAddresses (terminate lock env s).2.command.entries = [] := by
  have hidle := HoldEntry.releaseAll_idle env keeps_released s.xp h.2
  have hrun : unschedule lock (s.send .finish none) = (.none, s.send .finish none) := by
    have hnone : (s.send .finish none).command.task = none := h.1
    unfold unschedule Port.unschedule
    rw [hnone]
    simp [← hnone]
  unfold terminate
  dsimp only
  rw [hrun, if_neg (not_not.2 rfl)]
  split
  · exact ⟨h.1, hidle⟩
  · exact ⟨h.1, hidle⟩

/-- If the schedule can be locked and the releases can be queued, `cmtr_terminate` succeeds and
requests that the channel be destroyed. -/
theorem terminate_ok {t : ℕ} {lock : ErrorCode} {env : HoldEntry.ReleaseEnv} (h : Sound s)
    (hschedules : s.port.Schedules t taskPhase s.command.task) (hlock : lock = .none)
    (hresults : ∀ a, env.results a = .ok) (hpending : s.xp.queue.destructionPending = false) :
    (terminate lock env s).1 = .none ∧ (terminate lock env s).2.port.channels =
      (s.port.requestChannelDestruction s.command.channelId).channels := by
  have hsent : (s.send .finish none).port.Schedules t taskPhase s.command.task := hschedules
  obtain ⟨-, -, -, hchannels, hok⟩ := hsent.unschedule lock
  set r := (s.send .finish none).port.unschedule lock s.command.task taskPhase with hr
  have hrun : unschedule lock (s.send .finish none) =
      (r.1, { s with port := r.2.2, command := { s.command with task := r.2.1 } }) := rfl
  have hreleased : (HoldEntry.releaseAll env (fun entry => some { entry with held := false })
      s.command.entries s.xp).2.1 = 0 :=
        (HoldEntry.releaseAll_ok hresults hpending h.tracks.refs).2.1
  unfold terminate
  dsimp only
  rw [hrun, if_neg (not_not.2 (hok hlock)), hreleased, if_neg (Nat.lt_irrefl 0)]
  refine ⟨rfl, ?_⟩
  change (r.2.2.requestChannelDestruction s.command.channelId).channels = _
  unfold Port.requestChannelDestruction
  rw [hchannels]
  rfl

theorem processPost_sound {t : ℕ} (h : Sound s)
    (hschedules : s.port.Schedules t taskPhase s.command.task) (lock : ErrorCode)
    (env : HoldEntry.ReleaseEnv) :
    Sound (processPost lock env s).2 ∧
      (processPost lock env s).2.port.Schedules t taskPhase
        (processPost lock env s).2.command.task ∧
      ((processPost lock env s).1 = some .none →
        (processPost lock env s).2.command.task = none ∧
          HoldEntry.heldAddresses (processPost lock env s).2.command.entries = []) := by
  obtain ⟨hsound, hport, hdone⟩ := terminate_sound h hschedules lock env
  unfold processPost
  split
  · exact ⟨hsound, hport, fun hnone => hdone (Option.some.inj hnone)⟩
  · exact ⟨h, hschedules, fun himpossible => nomatch himpossible⟩

end

end Cmtr

end XprcServer
